import ToonVpu.Lib.Semaphore
import ToonVpu.Stream.Rtp

/-!
# Buffers — where the picture goes and what it is decoded into (`main` of `apps/vpu_stream.c`)

Before a session enters the decode loop, `main` works out the rectangle of the display that the
video covers and, the first time only, allocates the frame buffers, the RGB bounce buffer and one
scratch row.  Later sessions reuse them.  Arithmetic is that of an `int`.
-/

namespace ToonVpu
namespace Stream

open Foundation
open Lib

/-! ## Settings -/

inductive OutputMode
  | fb
  | decodeOnly
  | ppDummy
  deriving DecidableEq, Repr

/-- The plane the video is shown on.  Its 16- or 32-bit pixels are mapped with a length that is an
`int`. -/
structure Framebuffer where
  w : ℤ
  h : ℤ
  bpp : ℤ
  depth : bpp = 16 ∨ bpp = 32
  w_nonneg : 0 ≤ w
  h_nonneg : 0 ≤ h
  mapped : w * h * 2 < 2147483648

/-- What the command line and the configuration file settle. -/
structure Config where
  /-- `rtp_listen_port` is set. -/
  rtp : Bool
  codec : CodStd
  spspps : List UInt8
  outputMode : OutputMode
  overlay : Bool
  cpuRender : Bool
  ppDeblock : Bool
  prebuffer : ℤ
  fb : Framebuffer
  rectX : ℤ
  rectY : ℤ
  rectW : ℤ
  rectH : ℤ

def Config.hasRect (c : Config) : Bool := decide (0 < c.rectW ∧ 0 < c.rectH)

/-! ## The output rectangle -/

/-- `ALIGN16`. -/
def align16 (x : ℕ) : ℕ := (x + 15) / 16 * 16

def clampInt (v lo hi : ℤ) : ℤ := if v < lo then lo else if hi < v then hi else v

/-- The picture without its cropped margins.  Only a crop at the right and bottom edge counts. -/
def visibleSize (c : Config) (ii : DecInitialInfo) : ℕ × ℕ :=
  let crop := ii.picCropRect
  if c.codec = .avc ∧ crop.left = 0 ∧ crop.top = 0 ∧ 0 < crop.right ∧ 0 < crop.bottom ∧
      crop.right ≤ ii.picWidth ∧ crop.bottom ≤ ii.picHeight then
    (crop.right, crop.bottom)
  else
    (ii.picWidth, ii.picHeight)

/-- One direction of the rectangle: the offset is moved onto the plane and the length cut at its
far edge. -/
def clipAxis (off out len : ℤ) : ℤ × ℤ :=
  let off := if off < 0 then 0 else off
  let out := if len < i32 (off + out) then i32 (len - off) else out
  (off, out)

structure OutputRect where
  offX : ℤ
  offY : ℤ
  outW : ℤ
  outH : ℤ
  deriving DecidableEq, Repr

/-- `--rect`, or else the visible picture in the middle of the plane. -/
def outputRect (c : Config) (ii : DecInitialInfo) : OutputRect :=
  let (srcW, srcH) := visibleSize c ii
  let outW : ℤ := if c.hasRect then c.rectW else srcW
  let outH : ℤ := if c.hasRect then c.rectH else srcH
  let offX := if c.hasRect then c.rectX else (i32 (c.fb.w - outW)).tdiv 2
  let offY := if c.hasRect then c.rectY else (i32 (c.fb.h - outH)).tdiv 2
  let (offX, outW) := clipAxis offX outW c.fb.w
  let (offY, outH) := clipAxis offY outH c.fb.h
  ⟨offX, offY, outW, outH⟩

/-- `pp_dims_supported`. -/
def ppDimsSupported (srcW srcH dstW dstH : ℤ) : Bool :=
  decide (32 ≤ srcW ∧ 32 ≤ srcH ∧ 8 ≤ dstW ∧ 8 ≤ dstH ∧ srcW % 8 = 0 ∧ srcH % 8 = 0 ∧
    dstW % 2 = 0 ∧ dstH % 2 = 0)

/-! ## Allocation -/

/-- A `vpu_mem_desc` with memory behind it. -/
structure PhyMem where
  size : ℤ
  phyAddr : ℕ
  deriving DecidableEq, Repr

/-- The buffers that are allocated once.  `allocedFor` is the picture and the rectangle of the
session that allocated them; the program does not keep it. -/
structure Buffers where
  stride : ℤ
  ah : ℤ
  ysize : ℤ
  csize : ℤ
  fbcount : ℤ
  blitBytes : ℤ
  fbmem : List PhyMem
  /-- `rgbmem.size`, when it is allocated. -/
  rgbmem : Option ℤ
  /-- The number of bytes behind `row_scratch`, when it is allocated. -/
  rowScratch : Option ℕ
  allocedFor : DecInitialInfo × OutputRect
  deriving DecidableEq, Repr

/-- What the allocators answer. -/
structure AllocEnv where
  /-- `camera_fb_extra`. -/
  fbExtra : ℤ
  /-- `IOGetPhyMem`, and for `--cpu-render` the mapping, of one frame buffer after another. -/
  frames : List (Option ℕ)
  /-- `IOGetPhyMem` of `rgbmem`. -/
  rgb : Bool
  /-- `IOGetVirtMem` of `rgbmem`. -/
  rgbVirt : Bool
  /-- `malloc` of `row_scratch`. -/
  rowScratch : Bool
  deriving DecidableEq, Repr

/-- The loop over the frame buffers; a failed allocation ends the program. -/
def allocFrames (size : ℤ) : ℕ → List (Option ℕ) → Option (List PhyMem)
  | 0, _ => some []
  | n + 1, some addr :: rest => (allocFrames size n rest).map (⟨size, addr⟩ :: ·)
  | _ + 1, _ => none

/-- The number of bytes of one frame buffer: luma, two chroma planes, motion vectors. -/
def frameSize (ii : DecInitialInfo) : ℤ :=
  let stride : ℤ := align16 ii.picWidth
  let ah : ℤ := align16 ii.picHeight
  let ysize := i32 (stride * ah)
  let csize := i32 (stride / 2 * (ah / 2))
  let mvsize := i32 (align16 (ii.picWidth / 16) * align16 (ii.picHeight / 16) * 8)
  i32 (ysize + 2 * csize + mvsize)

/-- The block `if (!fb_alloced)`; `none` where the program returns. -/
def allocBuffers (c : Config) (ii : DecInitialInfo) (out : OutputRect) (env : AllocEnv) :
    Option Buffers := do
  let stride : ℤ := align16 ii.picWidth
  let ah : ℤ := align16 ii.picHeight
  let fbcount := i32 (ii.minFrameBufferCount + clampInt env.fbExtra 0 24)
  let fbcount := if 32 < fbcount then 32 else fbcount
  let fbmem ← allocFrames (frameSize ii) fbcount.toNat env.frames
  -- The bounce buffer is needed where the plane is not written directly.
  let bounce := decide (c.fb.bpp = 32 ∨ c.outputMode = .ppDummy)
  guard (bounce = true → env.rgb = true)
  guard (c.fb.bpp = 32 → env.rgbVirt = true ∧ env.rowScratch = true)
  return {
    stride := stride
    ah := ah
    ysize := i32 (stride * ah)
    csize := i32 (stride / 2 * (ah / 2))
    fbcount := fbcount
    blitBytes := i32 (out.outW * 2)
    fbmem := fbmem
    rgbmem := if bounce then some (i32 (out.outW * out.outH * 2)) else none
    rowScratch := if c.fb.bpp = 32 then some (u32 (i32 (out.outW * 4))) else none
    allocedFor := (ii, out) }

end Stream
end ToonVpu
