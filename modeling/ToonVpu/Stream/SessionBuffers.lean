import Mathlib.Tactic.Linarith
import Mathlib.Tactic.Ring
import ToonVpu.Stream.SessionLock

/-!
# SessionBuffers — sessions that reuse the buffers of the first one

The frame buffers, the bounce buffer and the scratch row are allocated when the first session
knows its picture size, and never again.  A later session is only stopped by
`vpu_DecRegisterFrameBuffer`, which compares the number of buffers and the row length with what the
new picture needs.  Its height, and the rectangle it is shown in, nobody compares.
-/

namespace ToonVpu
namespace Stream

open Foundation
open Foundation.Runs
open Lib

/-! ## What a picture needs -/

/-- The buffers are large enough for the picture `ii` shown in the rectangle `out`. -/
structure BuffersFit (b : Buffers) (ii : DecInitialInfo) (out : OutputRect) : Prop where
  frames : ∀ m ∈ b.fbmem, b.stride * align16 ii.picHeight +
    2 * (b.stride / 2) * (align16 ii.picHeight / 2) ≤ m.size
  stride : ii.picWidth ≤ b.stride
  bounce : ∀ n ∈ b.rgbmem, out.outW * out.outH * 2 ≤ n
  scratch : ∀ n ∈ b.rowScratch, out.outW * 4 ≤ (n : ℤ)
  blit : b.blitBytes = out.outW * 2

/-- The motion vectors of a frame buffer, the slack behind its planes. -/
def mvSize (ii : DecInitialInfo) : ℤ :=
  align16 (ii.picWidth / 16) * align16 (ii.picHeight / 16) * 8

/-- The picture `ii` in the rectangle `out`, compared with what the buffers were allocated for: as
many rows as fit the luma and chroma planes and the slack behind them, the same width on the
display, and no more lines there than the bounce buffer has. -/
structure Reusable (b : Buffers) (ii : DecInitialInfo) (out : OutputRect) : Prop where
  rows : b.fbmem ≠ [] →
    3 * align16 b.allocedFor.1.picWidth * align16 ii.picHeight ≤
      3 * align16 b.allocedFor.1.picWidth * align16 b.allocedFor.1.picHeight +
        2 * mvSize b.allocedFor.1
  width : out.outW = b.allocedFor.2.outW
  lines : b.rgbmem.isSome → out.outH ≤ b.allocedFor.2.outH

/-- The far edges of `--rect` fit an `int`. -/
def RectInRange (c : Config) : Prop :=
  c.hasRect = true →
    max c.rectX 0 + c.rectW < 2147483648 ∧ max c.rectY 0 + c.rectH < 2147483648

/-! ## Arithmetic of the allocation -/

section Arithmetic

theorem align16_eq (x : ℕ) : ∃ k, align16 x = 16 * k ∧ x ≤ 16 * k ∧ 16 * k < x + 16 := by
  refine ⟨(x + 15) / 16, ?_, ?_, ?_⟩
  · unfold align16
    omega
  · omega
  · omega

/-- Nothing overflows for the picture sizes the library accepts. -/
theorem frameSize_eq {ii : DecInitialInfo} (hii : PicSizeOk ii) :
    2 * frameSize ii =
      3 * align16 ii.picWidth * align16 ii.picHeight + 2 * mvSize ii := by
  obtain ⟨-, hw, -, hh⟩ := hii
  obtain ⟨a, ha, -, ha'⟩ := align16_eq ii.picWidth
  obtain ⟨b, hb, -, hb'⟩ := align16_eq ii.picHeight
  obtain ⟨p, hp, -, hp'⟩ := align16_eq (ii.picWidth / 16)
  obtain ⟨q, hq, -, hq'⟩ := align16_eq (ii.picHeight / 16)
  have hab : a * b ≤ 64 * 64 := Nat.mul_le_mul (by omega) (by omega)
  have hpq : p * q ≤ 4 * 4 := Nat.mul_le_mul (by omega) (by omega)
  have hy : ((16 * a : ℕ) : ℤ) * (16 * b : ℕ) = 256 * (a * b : ℕ) := by
    push_cast
    ring
  have hc : ((16 * a : ℕ) : ℤ) / 2 * (((16 * b : ℕ) : ℤ) / 2) = 64 * (a * b : ℕ) := by
    rw [show ((16 * a : ℕ) : ℤ) / 2 = 8 * a by omega, show ((16 * b : ℕ) : ℤ) / 2 = 8 * b by omega]
    push_cast
    ring
  have hm : ((16 * p : ℕ) : ℤ) * (16 * q : ℕ) * 8 = 2048 * (p * q : ℕ) := by
    push_cast
    ring
  have hthree : 3 * ((16 * a : ℕ) : ℤ) * (16 * b : ℕ) = 768 * (a * b : ℕ) := by
    push_cast
    ring
  simp only [frameSize, mvSize, ha, hb, hp, hq, hy, hc, hm, hthree]
  generalize a * b = x at *
  generalize p * q = y at *
  have hx : i32 (256 * (x : ℤ)) = 256 * x := i32_eq (by omega) (by omega)
  have hx' : i32 (64 * (x : ℤ)) = 64 * x := i32_eq (by omega) (by omega)
  have hy' : i32 (2048 * (y : ℤ)) = 2048 * y := i32_eq (by omega) (by omega)
  rw [hx, hx', hy', i32_eq (by omega) (by omega)]
  omega

/-- The planes of a picture of another height, in rows of the same length. -/
theorem planes_eq (w h : ℕ) :
    2 * ((align16 w : ℤ) * align16 h + 2 * ((align16 w : ℤ) / 2) * ((align16 h : ℤ) / 2)) =
      3 * align16 w * align16 h := by
  obtain ⟨a, ha, -⟩ := align16_eq w
  obtain ⟨k, hk, -⟩ := align16_eq h
  rw [ha, hk, show ((16 * a : ℕ) : ℤ) / 2 = 8 * a by omega,
    show ((16 * k : ℕ) : ℤ) / 2 = 8 * k by omega]
  push_cast
  ring

theorem clipAxis_le {off out len : ℤ} (hlen : 0 ≤ len) (hlen' : len < 2147483648)
    (hout : 0 ≤ out) (hsum : max off 0 + out < 2147483648) : (clipAxis off out len).2 ≤ len := by
  unfold clipAxis
  simp only
  generalize hoff : (if off < 0 then 0 else off) = o
  have hmax : o = max off 0 := by
    rw [← hoff]
    split <;> omega
  have hnonneg : 0 ≤ o := by omega
  rw [i32_eq (by omega) (by omega), i32_eq (by omega) (by omega)]
  split <;> omega

/-- The visible picture is no larger than the picture. -/
theorem visibleSize_lt {c : Config} {ii : DecInitialInfo} (hii : PicSizeOk ii) :
    (visibleSize c ii).1 < 1024 ∧ (visibleSize c ii).2 < 1024 := by
  obtain ⟨-, hw, -, hh⟩ := hii
  unfold visibleSize
  simp only
  split
  · rename_i hcrop
    obtain ⟨-, -, -, -, -, hr, hb⟩ := hcrop
    exact ⟨by simpa using Nat.lt_of_le_of_lt hr hw, by simpa using Nat.lt_of_le_of_lt hb hh⟩
  · exact ⟨hw, hh⟩

/-- One direction of the rectangle stays on the plane. -/
theorem axis_le (rect : Bool) {off out len : ℤ} {src : ℕ} {rectOff rectLen : ℤ}
    (hlen : 0 ≤ len) (hlen' : len < 2147483648) (hsrc : src < 1024)
    (hrect : rect = true → 0 < rectLen ∧ max rectOff 0 + rectLen < 2147483648)
    (hout : out = if rect then rectLen else (src : ℤ))
    (hoff : off = if rect then rectOff else (i32 (len - out)).tdiv 2) :
    (clipAxis off out len).2 ≤ len := by
  cases rect with
  | true =>
    obtain ⟨hpos, hsum⟩ := hrect rfl
    rw [if_pos rfl] at hout hoff
    rw [hout, hoff]
    exact clipAxis_le hlen hlen' (by omega) hsum
  | false =>
    rw [if_neg Bool.false_ne_true] at hout hoff
    have hhalf : 2 * off ≤ len + 2 := by
      rw [hoff, hout, i32_eq (by omega) (by omega), Int.tdiv_eq_ediv]
      split
      · omega
      · rw [show Int.sign 2 = 1 from rfl]
        omega
    rw [hout]
    exact clipAxis_le hlen hlen' (by omega) (by omega)

/-- A rectangle that is not too small to be shown lies on the plane, and its bytes can be counted
in an `int`. -/
theorem outputRect_le {c : Config} (hrect : RectInRange c) {ii : DecInitialInfo}
    (hii : PicSizeOk ii) (hw : 2 ≤ (outputRect c ii).outW) (hh : 2 ≤ (outputRect c ii).outH) :
    (outputRect c ii).outW * (outputRect c ii).outH * 2 < 2147483648 ∧
      (outputRect c ii).outW * 4 < 2147483648 := by
  have hsrc := visibleSize_lt (c := c) hii
  have hx : c.fb.w < 2147483648 → (outputRect c ii).outW ≤ c.fb.w := by
    intro hlen
    refine axis_le c.hasRect c.fb.w_nonneg hlen hsrc.1 ?_ rfl rfl
    intro hr
    exact ⟨(of_decide_eq_true hr).1, (hrect hr).1⟩
  have hy : c.fb.h < 2147483648 → (outputRect c ii).outH ≤ c.fb.h := by
    intro hlen
    refine axis_le c.hasRect c.fb.h_nonneg hlen hsrc.2 ?_ rfl rfl
    intro hr
    exact ⟨(of_decide_eq_true hr).2, (hrect hr).2⟩
  generalize (outputRect c ii).outW = w at *
  generalize (outputRect c ii).outH = h at *
  have hmapped := c.fb.mapped
  have hwn := c.fb.w_nonneg
  have hhn := c.fb.h_nonneg
  -- a plane without pixels shows nothing, so each side bounds the other
  have hw1 : 1 ≤ c.fb.w := by
    by_contra hzero
    have := hx (by omega)
    omega
  have hh1 : c.fb.h < 2147483648 := by nlinarith
  have hh2 := hy hh1
  have hw2 : c.fb.w < 2147483648 := by nlinarith
  have hw3 := hx hw2
  constructor
  · nlinarith
  · nlinarith

end Arithmetic

/-! ## The buffers that were allocated -/

/-- Buffers that some session allocated before it entered its decode loop. -/
structure Alloced (c : Config) (b : Buffers) : Prop where
  stride : b.stride = align16 b.allocedFor.1.picWidth
  frames : ∀ m ∈ b.fbmem, m.size = frameSize b.allocedFor.1
  bounce : ∀ n ∈ b.rgbmem, n = i32 (b.allocedFor.2.outW * b.allocedFor.2.outH * 2)
  scratch : ∀ n ∈ b.rowScratch, n = u32 (i32 (b.allocedFor.2.outW * 4))
  blit : b.blitBytes = i32 (b.allocedFor.2.outW * 2)
  pic : PicSizeOk b.allocedFor.1
  rect : b.allocedFor.2 = outputRect c b.allocedFor.1
  wide : 2 ≤ b.allocedFor.2.outW
  high : 2 ≤ b.allocedFor.2.outH

section Allocated

variable {c : Config} {b : Buffers} {ii : DecInitialInfo} {out : OutputRect}

theorem allocFrames_size {size : ℤ} {n : ℕ} {frames : List (Option ℕ)} {fbmem : List PhyMem}
    (h : allocFrames size n frames = some fbmem) : ∀ m ∈ fbmem, m.size = size := by
  induction n generalizing frames fbmem with
  | zero =>
    simp only [allocFrames, Option.some.injEq] at h
    simp [← h]
  | succ n ih =>
    cases frames with
    | nil => simp [allocFrames] at h
    | cons frame rest =>
      cases frame with
      | none => simp [allocFrames] at h
      | some addr =>
        simp only [allocFrames, Option.map_eq_some_iff] at h
        obtain ⟨later, hlater, rfl⟩ := h
        intro m hm
        rcases List.mem_cons.mp hm with rfl | hm
        · rfl
        · exact ih hlater m hm

theorem allocBuffers_alloced {env : AllocEnv} (h : allocBuffers c ii out env = some b)
    (hii : PicSizeOk ii) (hout : out = outputRect c ii) (hw : 2 ≤ out.outW) (hh : 2 ≤ out.outH) :
    Alloced c b ∧ b.allocedFor = (ii, out) := by
  simp only [allocBuffers, bind, Option.bind_eq_some_iff, pure, Option.some.injEq] at h
  obtain ⟨fbmem, hframes, -, -, -, -, rfl⟩ := h
  refine ⟨⟨rfl, allocFrames_size hframes, ?_, ?_, rfl, hii, hout, hw, hh⟩, rfl⟩
  · intro n hn
    simp only [Option.mem_def] at hn
    split at hn
    · exact (Option.some.inj hn).symm
    · cases hn
  · intro n hn
    simp only [Option.mem_def] at hn
    split at hn
    · exact (Option.some.inj hn).symm
    · cases hn

/-- With rows that are long enough, a picture fits exactly when it compares well with the one the
buffers were allocated for. -/
theorem Alloced.fits_iff (hb : Alloced c b) (hrect : RectInRange c)
    (hstride : ii.picWidth ≤ b.stride) : BuffersFit b ii out ↔ Reusable b ii out := by
  have hbytes := outputRect_le hrect hb.pic (by rw [← hb.rect]; exact hb.wide)
    (by rw [← hb.rect]; exact hb.high)
  rw [← hb.rect] at hbytes
  have hframe := frameSize_eq hb.pic
  have hplanes := planes_eq b.allocedFor.1.picWidth ii.picHeight
  have hwide := hb.wide
  have hblit : b.blitBytes = b.allocedFor.2.outW * 2 := by
    rw [hb.blit, i32_eq (by omega) (by omega)]
  have harea : 0 ≤ b.allocedFor.2.outW * b.allocedFor.2.outH := by
    have hhigh := hb.high
    exact mul_nonneg (by omega) (by omega)
  have hbounce : ∀ n ∈ b.rgbmem, n = b.allocedFor.2.outW * b.allocedFor.2.outH * 2 := by
    intro n hn
    rw [hb.bounce n hn, i32_eq (by omega) (by omega)]
  constructor
  · -- One frame and the bounce buffer tell how many rows there is room for.
    intro hfit
    have hsame : out.outW = b.allocedFor.2.outW := by
      have := hfit.blit
      omega
    refine ⟨?_, hsame, ?_⟩
    · intro hne
      obtain ⟨m, hm⟩ := List.exists_mem_of_ne_nil _ hne
      have hroom := hfit.frames m hm
      rw [hb.frames m hm, hb.stride] at hroom
      omega
    · intro hsome
      obtain ⟨n, hn⟩ := Option.isSome_iff_exists.mp hsome
      have hroom := hfit.bounce n hn
      rw [hbounce n hn, hsame] at hroom
      nlinarith
  · intro hreuse
    refine ⟨?_, hstride, ?_, ?_, ?_⟩
    · intro m hm
      have hrows := hreuse.rows (List.ne_nil_of_mem hm)
      rw [hb.frames m hm, hb.stride]
      omega
    · intro n hn
      have hlines := hreuse.lines (Option.isSome_iff_exists.mpr ⟨n, hn⟩)
      rw [hbounce n hn, hreuse.width]
      nlinarith
    · intro n hn
      have hrow : u32 (i32 (b.allocedFor.2.outW * 4)) = (b.allocedFor.2.outW * 4).toNat := by
        rw [i32_eq (by omega) (by omega)]
        exact u32_eq (by omega) (by omega)
      rw [hb.scratch n hn, hrow, hreuse.width]
      omega
    · rw [hblit, hreuse.width]

/-- The session that allocates the buffers can use them. -/
theorem Reusable.own (b : Buffers) : Reusable b b.allocedFor.1 b.allocedFor.2 := by
  refine ⟨fun _ => ?_, rfl, fun _ => le_refl _⟩
  have : 0 ≤ mvSize b.allocedFor.1 := by
    unfold mvSize
    positivity
  omega

end Allocated

/-! ## Steps that do not touch the setup -/

theorem drop_phase (s : Session) (restart : Bool) :
    (drop s restart).phase ≠ .decoding ∧ (drop s restart).phase ≠ .priming := by
  unfold drop
  simp only
  split <;> exact ⟨by decide, by decide⟩

/-- From `s` to `s'` the picture, the rectangle and the buffers are the same; the connection may
have ended. -/
structure SameSetup (s s' : Session) : Prop where
  phase : s'.phase = s.phase ∨ s'.phase ≠ .decoding ∧ s'.phase ≠ .priming
  ii : s'.ii = s.ii
  out : s'.out = s.out
  bufs : s'.bufs = s.bufs

section Setup

variable {c : Config} {s s' s'' : Session}

theorem SameSetup.refl (s : Session) : SameSetup s s := ⟨.inl rfl, rfl, rfl, rfl⟩

theorem SameSetup.trans (h : SameSetup s s') (h' : SameSetup s' s'') : SameSetup s s'' := by
  refine ⟨?_, h'.ii.trans h.ii, h'.out.trans h.out, h'.bufs.trans h.bufs⟩
  rcases h'.phase with hsame | hended
  · rw [hsame]
    exact h.phase
  · exact .inr hended

theorem Quiet.sameSetup (h : Quiet s s') : SameSetup s s' :=
  ⟨.inl h.phase, h.ii, h.out, h.bufs⟩

theorem sameSetup_feedFirst (t : Turn) (s : Session) : SameSetup s (feedFirst c t s).1 := by
  unfold feedFirst
  simp only
  split <;> exact ⟨.inl rfl, rfl, rfl, rfl⟩

theorem sameSetup_startTurn (t : Turn) (s : Session) : SameSetup s (startTurn c s t).1 := by
  have hcool := (((quiet_usedNow s).trans
    (still_deliver (usedNow s).1 (t.signals 0)).toQuiet).trans
    (still_coolDown ((usedNow s).1.deliver (t.signals 0))).toQuiet).sameSetup
  have hfeed := hcool.trans (sameSetup_feedFirst (c := c) t _)
  unfold startTurn
  simp only
  generalize feedFirst c t (coolDown ((usedNow s).1.deliver (t.signals 0))) = fed at hfeed ⊢
  obtain ⟨s₁, rc⟩ := fed
  have hmore := hfeed.trans (quiet_feedMore c t s₁ rc).sameSetup
  simp only
  generalize feedMore c t s₁ rc = more at hmore ⊢
  obtain ⟨s₂, rc₂⟩ := more
  simp only
  split
  · exact hmore
  have hwatch := hmore.trans (still_inputWatchdogs c t (usedNow s).2 rc₂ s₂).toQuiet.sameSetup
  generalize inputWatchdogs c t (usedNow s).2 rc₂ s₂ = watched at hwatch ⊢
  obtain ⟨s₃, stop⟩ := watched
  simp only
  split
  · exact hwatch
  have hcall : SameSetup s { s₃ with vpu := (vpuDecStartOneFrame s₃.vpu s₃.h).1 } :=
    hwatch.trans ⟨.inl rfl, rfl, rfl, rfl⟩
  split
  · exact hcall
  · exact hcall.trans (((still_note _ .startFrame).trans (still_deliver _ (t.signals 1))).trans
      (still_renderPipelined c t _)).toQuiet.sameSetup

theorem sameSetup_finishTurn (t : Turn) (s : Session) : SameSetup s (finishTurn c s t).1 := by
  unfold finishTurn
  simp only
  generalize vpuDecGetOutputInfo s.vpu s.h true = output
  obtain ⟨v, ret⟩ := output
  have hcall : SameSetup s { s with vpu := v } := ⟨.inl rfl, rfl, rfl, rfl⟩
  simp only
  split
  · exact hcall
  have hnote := hcall.trans ((still_note { s with vpu := v } (.output t.oi)).trans
    (still_deliver _ (t.signals 2))).toQuiet.sameSetup
  have hrelease : ∀ s₁ : Session, SameSetup s₁ (releasePending c t s₁) := by
    intro s₁
    unfold releasePending
    split
    · simp only
      split <;> exact ⟨.inl rfl, rfl, rfl, rfl⟩
    · exact SameSetup.refl s₁
  have hdisplay : ∀ s₁ : Session, SameSetup s₁ (display c t s₁) := by
    intro s₁
    have harm := (still_armOutput c t s₁).toQuiet.sameSetup
    unfold display
    simp only
    split_ifs
    · exact harm.trans ⟨.inl rfl, rfl, rfl, rfl⟩
    · exact harm.trans ⟨.inl rfl, rfl, rfl, rfl⟩
    · exact harm.trans ⟨.inl rfl, rfl, rfl, rfl⟩
    · exact SameSetup.refl s₁
  have hnoFrame := (((hnote.trans (hrelease _)).trans
    (still_deliver _ (t.signals 3)).toQuiet.sameSetup).trans (hdisplay _)).trans
      (quiet_noFrame c t _).sameSetup
  generalize noFrame c t _ = fed at hnoFrame ⊢
  obtain ⟨s₂, gone⟩ := fed
  simp only
  split
  · exact hnoFrame
  · exact hnoFrame.trans (still_outputWatchdogs c t s₂).toQuiet.sameSetup

theorem sameSetup_disconnect (s : Session) : SameSetup s (disconnect c s) := by
  unfold disconnect clearPending
  simp only
  split <;> split <;> exact ⟨.inr (drop_phase _ _), rfl, rfl, rfl⟩

theorem sameSetup_decodeTurn (t : Turn) (s : Session) : SameSetup s (decodeTurn c s t) := by
  have hstart := sameSetup_startTurn (c := c) t s
  unfold decodeTurn
  simp only
  generalize startTurn c s t = started at hstart ⊢
  obtain ⟨s₁, go⟩ := started
  simp only
  split
  swap
  · exact hstart.trans (sameSetup_disconnect s₁)
  have hwait := hstart.trans (quiet_busyWait c (t.busy.take 31) s₁).sameSetup
  generalize busyWait c (t.busy.take 31) s₁ = waited at hwait ⊢
  obtain ⟨s₂, gone⟩ := waited
  simp only
  split
  · exact hwait.trans (sameSetup_disconnect s₂)
  have hfinish := hwait.trans (sameSetup_finishTurn (c := c) t s₂)
  generalize finishTurn c s₂ t = finished at hfinish ⊢
  obtain ⟨s₃, again⟩ := finished
  simp only
  split
  · exact hfinish
  · exact hfinish.trans (sameSetup_disconnect s₃)

end Setup

/-! ## Runs -/

/-- In its decode loop, a session has buffers that are large enough for its picture. -/
def BuffersHold (s : Session) : Prop :=
  s.phase = .decoding → ∃ b, s.bufs = some b ∧ BuffersFit b s.ii s.out

/-- What the loop knows about its buffers between steps. -/
structure BuffersInv (c : Config) (s : Session) : Prop where
  alloced : ∀ b, s.bufs = some b → Alloced c b
  primed : s.phase = .priming → s.inited = true →
    ∃ i, s.h = some i ∧ (s.vpu.semap.codecInstPool i).initialInfo = s.ii ∧ PicSizeOk s.ii
  holds : BuffersHold s

/-- A session that enters its decode loop with the buffers of another one can use them. -/
def ReusesFitting (c : Config) (s : Session) (a : Step) : Prop :=
  ∀ e b, a = .enter e → s.phase = .priming → s.inited = true → s.bufs = some b →
    (enterLoop c s e).phase = .decoding → Reusable b s.ii (outputRect c s.ii)

section Sessions

variable {c : Config} {bs : BitstreamMem} {s s' : Session}

/-- Outside of a connection only the buffers matter. -/
theorem BuffersInv.idle (halloced : ∀ b, s.bufs = some b → Alloced c b)
    (hphase : s.phase ≠ .decoding ∧ s.phase ≠ .priming) : BuffersInv c s :=
  ⟨halloced, fun h => absurd h hphase.2, fun h => absurd h hphase.1⟩

theorem BuffersInv.drop (halloced : ∀ b, s.bufs = some b → Alloced c b) (restart : Bool) :
    BuffersInv c (drop s restart) :=
  BuffersInv.idle halloced (drop_phase s restart)

/-- The prime loop ends with the picture size the library has stored. -/
theorem tryInitialInfo_buffersInv (h : BuffersInv c s) (hphase : s.phase = .priming)
    (hinited : s.inited = false) (seq : SeqInit) : BuffersInv c (tryInitialInfo s seq) := by
  unfold tryInitialInfo
  simp only
  generalize hcall : vpuDecGetInitialInfo (vpuDecSetEscSeqInit s.vpu s.h 1).1 s.h true
    { seq with bufEmpty := decide (s.ring.rdPtr = s.ring.streamWrPtr) } = result
  obtain ⟨v, ret⟩ := result
  simp only
  split
  · rename_i i hi
    obtain ⟨j, hj, hsize⟩ := vpuDecGetInitialInfo_size (congrArg Prod.snd hcall)
    have hij : j = i := Option.some.inj (hj.symm.trans hi)
    subst hij
    rw [hcall] at hsize
    refine ⟨h.alloced, fun _ _ => ⟨j, hi, rfl, ?_⟩, ?_⟩
    · simp only [vpuDecSetEscSeqInit_pool]
      exact hsize
    · intro hdecoding
      simp [hphase] at hdecoding
  · refine ⟨h.alloced, ?_, ?_⟩
    · intro _ hin
      simp [hinited] at hin
    · intro hdecoding
      simp [hphase] at hdecoding

theorem primeTurn_buffersInv (h : BuffersInv c s) (hphase : s.phase = .priming) (t : PrimeTurn) :
    BuffersInv c (primeTurn c s t) := by
  unfold primeTurn
  split
  · exact h
  rename_i hinited
  have hin : s.inited = false := by simpa using hinited
  split
  · exact BuffersInv.drop h.alloced _
  -- the feeds change neither the phase nor what is known about the picture
  have hgo : ∀ s₁ : Session, s₁.phase = s.phase → s₁.inited = s.inited → s₁.bufs = s.bufs →
      BuffersInv c s₁ ∧ (∀ restart, BuffersInv c (Stream.drop s₁ restart)) ∧
        BuffersInv c (tryInitialInfo s₁ t.seq) := by
    intro s₁ hp hi hb
    have halloced : ∀ b, s₁.bufs = some b → Alloced c b := by
      rw [hb]
      exact h.alloced
    have hkeep : BuffersInv c s₁ := by
      refine ⟨halloced, ?_, ?_⟩
      · rw [hi, hin]
        simp
      · intro hdecoding
        rw [hp, hphase] at hdecoding
        simp at hdecoding
    exact ⟨hkeep, BuffersInv.drop halloced,
      tryInitialInfo_buffersInv hkeep (hp.trans hphase) (hi.trans hin) t.seq⟩
  simp only
  split
  · obtain ⟨hkeep, hdrop, htry⟩ := hgo
      (({ s with primeTries := s.primeTries + 1 } : Session).rtpFeed c t.packets).1 rfl rfl rfl
    split_ifs
    · exact hdrop _
    · exact hkeep
    · exact htry
  · obtain ⟨hkeep, hdrop, htry⟩ := hgo
      { s with
        primeTries := s.primeTries + 1
        ring := (feed s.ring true t.pollReady t.recv).1 } rfl rfl rfl
    split_ifs
    · exact hdrop _
    · exact hkeep
    · exact htry

/-- A session whose buffers are registered has rows that are long enough. -/
theorem registerFrames_decoding {b : Buffers} {e : Entry}
    (hphase : (registerFrames c s b e).phase = .decoding) :
    (registerFrames c s b e).ii = s.ii ∧ (registerFrames c s b e).out = s.out ∧
      (registerFrames c s b e).bufs = s.bufs ∧
      ∃ i, s.h = some i ∧ (s.vpu.semap.codecInstPool i).initialInfo.picWidth ≤ b.stride := by
  unfold registerFrames at hphase ⊢
  split at hphase
  · exact absurd hphase (drop_phase s false).1
  rename_i hslice
  rw [if_neg hslice]
  simp only at hphase ⊢
  split at hphase
  · rename_i hret
    rw [if_pos hret]
    exact ⟨rfl, rfl, rfl, vpuDecRegisterFrameBuffer_stride hret⟩
  · exact absurd hphase (drop_phase _ false).1

theorem registerFrames_bufs (s : Session) (b : Buffers) (e : Entry) :
    (registerFrames c s b e).bufs = s.bufs ∧ (registerFrames c s b e).phase ≠ .priming := by
  unfold registerFrames
  split
  · exact ⟨rfl, (drop_phase s false).2⟩
  simp only
  split
  · exact ⟨rfl, by simp [startLoop]⟩
  · exact ⟨rfl, (drop_phase _ false).2⟩

/-- What is known of a session on its way into the decode loop. -/
structure EnteredWith (c : Config) (s s' : Session) (b : Buffers) : Prop where
  bufs : s'.bufs = some b
  alloced : Alloced c b
  ii : s'.ii = s.ii
  out : s'.out = outputRect c s.ii
  stride : s.ii.picWidth ≤ b.stride
  /-- The buffers were there before, or are its own. -/
  origin : s.bufs = some b ∨ s.bufs = none ∧ b.allocedFor = (s.ii, outputRect c s.ii)

theorem enterLoop_spec (h : BuffersInv c s) (hphase : s.phase = .priming)
    (hinited : s.inited = true) (e : Entry) :
    (∀ b, (enterLoop c s e).bufs = some b → Alloced c b) ∧
      (enterLoop c s e).phase ≠ .priming ∧
      ((enterLoop c s e).phase = .decoding → ∃ b, EnteredWith c s (enterLoop c s e) b) := by
  obtain ⟨i, hi, hinfo, hsize⟩ := h.primed hphase hinited
  unfold enterLoop
  rw [if_pos hinited]
  simp only
  split
  · exact ⟨h.alloced, (drop_phase _ _).2, fun hd => absurd hd (drop_phase _ _).1⟩
  rename_i hsmall
  simp only [not_or, not_lt] at hsmall
  split
  · exact ⟨h.alloced, (drop_phase _ _).2, fun hd => absurd hd (drop_phase _ _).1⟩
  -- what is left is registered, with the buffers at hand or with new ones
  have hregister : ∀ (s₁ : Session) (b : Buffers), s₁.bufs = some b → Alloced c b →
      s₁.ii = s.ii → s₁.out = outputRect c s.ii → s₁.h = s.h → s₁.vpu = s.vpu →
      (s.bufs = some b ∨ s.bufs = none ∧ b.allocedFor = (s.ii, outputRect c s.ii)) →
      (∀ b', (registerFrames c s₁ b e).bufs = some b' → Alloced c b') ∧
        (registerFrames c s₁ b e).phase ≠ .priming ∧
        ((registerFrames c s₁ b e).phase = .decoding →
          ∃ b', EnteredWith c s (registerFrames c s₁ b e) b') := by
    intro s₁ b hb halloced hii hout hh hv horigin
    obtain ⟨hbufs, hne⟩ := registerFrames_bufs (c := c) s₁ b e
    refine ⟨?_, hne, ?_⟩
    · intro b' hb'
      rw [hbufs, hb] at hb'
      cases hb'
      exact halloced
    · intro hd
      obtain ⟨hii', hout', hbufs', j, hj, hstride⟩ := registerFrames_decoding hd
      have hij : j = i := Option.some.inj (hj.symm.trans (hh.trans hi))
      subst hij
      rw [hv, hinfo] at hstride
      exact ⟨b, hbufs'.trans hb, halloced, hii'.trans hii, hout'.trans hout, hstride, horigin⟩
  split
  · rename_i b hb
    exact hregister _ b hb (h.alloced b hb) rfl rfl rfl rfl (.inl hb)
  rename_i hnone
  split
  · exact ⟨h.alloced, by simp, by simp⟩
  · rename_i b hb
    obtain ⟨halloced, hfor⟩ := allocBuffers_alloced hb hsize rfl hsmall.1 hsmall.2
    exact hregister _ b rfl halloced rfl rfl rfl rfl (.inr ⟨hnone, hfor⟩)

theorem BuffersInv.step (hrect : RectInRange c) (h : BuffersInv c s) {a : Step}
    (hreuse : ReusesFitting c s a) : BuffersInv c (step c bs s a) := by
  unfold Stream.step
  split
  · rename_i con hphase
    -- A connection leaves the buffers alone and decodes nothing yet.
    have hidle : ∀ s₁ : Session, s₁.bufs = s.bufs → s₁.phase ≠ .decoding →
        (s₁.phase = .priming → s₁.inited = false) → BuffersInv c s₁ := by
      intro s₁ hb hd hin
      refine ⟨by rw [hb]; exact h.alloced, ?_, fun hdec => absurd hdec hd⟩
      intro hp htrue
      rw [hin hp] at htrue
      cases htrue
    unfold connect openDecoder
    simp only
    split_ifs
    · exact hidle _ rfl (by simp [hphase]) (by simp)
    · split
      · exact hidle _ rfl (by simp) (by simp)
      · exact hidle _ rfl (by simp [hphase]) (by simp)
    · exact hidle _ rfl (by simp [hphase]) (by simp)
    · split
      · exact hidle _ rfl (by simp) (by simp)
      · exact hidle _ rfl (by simp [hphase]) (by simp)
  · rename_i t hphase
    exact primeTurn_buffersInv h hphase t
  · rename_i e hphase
    by_cases hinited : s.inited = true
    · obtain ⟨halloced, hne, hentered⟩ := enterLoop_spec h hphase hinited e
      refine ⟨halloced, fun hp => absurd hp hne, ?_⟩
      intro hdecoding
      obtain ⟨b, hb⟩ := hentered hdecoding
      refine ⟨b, hb.bufs, ?_⟩
      rw [hb.ii, hb.out]
      apply (hb.alloced.fits_iff hrect hb.stride).mpr
      -- Buffers of an earlier session fit by `hreuse`; new ones are made for this stream.
      rcases hb.origin with hold | ⟨-, hfor⟩
      · exact hreuse e b rfl hphase hinited hold hdecoding
      · have hown := Reusable.own b
        rw [hfor] at hown
        exact hown
    · unfold enterLoop
      rw [if_neg hinited]
      exact h
  · rename_i t hphase
    -- A turn keeps the buffers and all that they were sized by.
    have hsame := sameSetup_decodeTurn (c := c) t s
    obtain ⟨b, hb, hfit⟩ := h.holds hphase
    refine ⟨?_, ?_, ?_⟩
    · rw [hsame.bufs]
      exact h.alloced
    · intro hp
      rcases hsame.phase with hp' | hp'
      · rw [hp', hphase] at hp
        cases hp
      · exact absurd hp hp'.2
    · intro _
      rw [hsame.bufs, hsame.ii, hsame.out]
      exact ⟨b, hb, hfit⟩
  · rename_i sig
    have hq := (still_deliver s [sig]).toQuiet
    have hinited : (s.deliver [sig]).inited = s.inited := by cases sig <;> rfl
    refine ⟨?_, ?_, ?_⟩
    · rw [hq.bufs]
      exact h.alloced
    · rw [hq.phase, hinited, hq.h, hq.vpu, hq.ii]
      exact h.primed
    · unfold BuffersHold
      rw [hq.phase, hq.bufs, hq.ii, hq.out]
      exact h.holds
  · exact h

/-- Buffers that hold the picture were reusable for it. -/
theorem reusesFitting_of_holds (hrect : RectInRange c) (h : BuffersInv c s) {a : Step}
    (hholds : BuffersHold (step c bs s a)) : ReusesFitting c s a := by
  rintro e b rfl hphase hinited hbufs hdecoding
  simp only [step, hphase] at hholds
  obtain ⟨b', hb', hfit⟩ := hholds hdecoding
  obtain ⟨b'', hentered⟩ := (enterLoop_spec h hphase hinited e).2.2 hdecoding
  have hsame : b'' = b' := Option.some.inj (hentered.bufs.symm.trans hb')
  subst hsame
  have hown : b'' = b := by
    rcases hentered.origin with hold | ⟨hnone, -⟩
    · exact Option.some.inj (hold.symm.trans hbufs)
    · rw [hnone] at hbufs
      cases hbufs
  subst hown
  rw [hentered.ii, hentered.out] at hfit
  exact (hentered.alloced.fits_iff hrect hentered.stride).mp hfit

theorem BuffersInv.init (warm : Bool) (v : Vpu) : BuffersInv c (Session.init warm v) := by
  apply BuffersInv.idle
  · intro b hb
    cases hb
  · exact ⟨by simp [Session.init], by simp [Session.init]⟩

end Sessions

/-- **The buffers of a session.** In every run, each session that enters its decode loop has frame
buffers, a bounce buffer, a scratch row and a row length that are right for its own picture, exactly
when each session that finds buffers of an earlier one compares well with it. -/
theorem buffers_fit_every_session (c : Config) (hrect : RectInRange c) (bs : BitstreamMem)
    (warm : Bool) (v : Vpu) (steps : List Step) :
    (∀ n, BuffersHold (stateAt (step c bs) (Session.init warm v) steps n)) ↔
      Along (step c bs) (Session.init warm v) steps (ReusesFitting c) := by
  apply forall_good_iff_along (BuffersInv.init (c := c) warm v)
  · intro s a h hreuse
    exact h.step hrect hreuse
  · intro s h
    exact h.holds
  · intro s a h hholds
    exact reusesFitting_of_holds hrect h hholds

/-- A connection with a picture of the given size, as far as its decode loop. -/
def shortSession (width height : ℕ) : List Step :=
  [.connect ⟨0, true, true, fun _ => 0, []⟩,
    .prime ⟨[], true, .bytes [0, 0, 1], ⟨false, true, width * 1024 + height, 3, 0, 0⟩⟩,
    .enter ⟨⟨4, List.replicate 7 (some 0), true, true, true⟩, true, 0⟩]

/-- A camera that reconnects with a picture of the same width and more than seven times the
height. -/
def tallerPicture : List Step :=
  shortSession 640 64 ++ [.turn { quietTurn 0 [] with reads := [.bytes []] }] ++
    shortSession 640 480

theorem buffers_fit_every_session_tcpConfig :
    RectInRange tcpConfig ∧
      ((∀ n, BuffersHold (stateAt (step tcpConfig ⟨4096, by decide⟩)
          (Session.init false (startedVpu Semaphore.zero false true)) tallerPicture n)) ↔
        Along (step tcpConfig ⟨4096, by decide⟩)
          (Session.init false (startedVpu Semaphore.zero false true)) tallerPicture
          (ReusesFitting tcpConfig)) :=
  ⟨by simp [RectInRange, tcpConfig, Config.hasRect],
    buffers_fit_every_session tcpConfig (by simp [RectInRange, tcpConfig, Config.hasRect])
      ⟨4096, by decide⟩ false (startedVpu Semaphore.zero false true) tallerPicture⟩

/-- The second session is registered with frame buffers of 64 rows. -/
theorem buffers_too_small_for_taller_picture :
    ¬ ∀ n, BuffersHold (stateAt (step tcpConfig ⟨4096, by decide⟩)
      (Session.init false (startedVpu Semaphore.zero false true)) tallerPicture n) := by
  intro hall
  obtain ⟨b, hb, hfit⟩ := hall 7 (by decide +kernel)
  have hpic : (stateAt (step tcpConfig ⟨4096, by decide⟩)
      (Session.init false (startedVpu Semaphore.zero false true)) tallerPicture 7).ii.picHeight =
      480 := by
    decide +kernel
  have hsizes : ∀ b', (stateAt (step tcpConfig ⟨4096, by decide⟩)
      (Session.init false (startedVpu Semaphore.zero false true)) tallerPicture 7).bufs = some b' →
      b'.stride = 640 ∧ ∃ m ∈ b'.fbmem, m.size = 67584 := by
    decide +kernel
  obtain ⟨hstride, m, hm, hsize⟩ := hsizes b hb
  have hneed := hfit.frames m hm
  rw [hpic, hstride, hsize] at hneed
  revert hneed
  decide

end Stream
end ToonVpu
