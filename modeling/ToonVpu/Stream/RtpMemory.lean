import ToonVpu.Foundation.Logged
import ToonVpu.Stream.H264
import ToonVpu.Stream.Mpeg4

/-!
# RtpMemory — the RTP handlers with their memory accesses (`apps/vpu_stream.c`)

The same handlers as in `Rtp`, `H264` and `Mpeg4`, written as the source writes them: with a pointer
into the packet that moves on, lengths that go along with pointers, and a log of every byte that is
read or written.  A value of the packet can only be had by a logged read.  `Access.Ok` says when an
access stays inside the buffer it is meant for; a copy to the ring also has to stay clear of the
bytes that the hardware has not read yet.

The handlers print a line for the first packets, from a counter that is not modelled; the reads of
that line are logged for every packet.
-/

namespace ToonVpu
namespace Stream
namespace Memory

open Foundation
open Lib

/-! ## Accesses -/

/-- The buffers that a handler has pointers to; `startCode` and `header` are its own small ones. -/
inductive Region
  | packet
  | spspps
  | startCode
  | header
  | fu
  | au
  deriving DecidableEq, Repr

/-- One access to memory. -/
inductive Access
  | read (region : Region) (pos len : ℕ)
  | write (region : Region) (pos len : ℕ)
  /-- A copy to the ring while the write and the read pointer are at `wr` and `rd`. -/
  | ring (pos len wr rd : ℕ)
  deriving DecidableEq, Repr

/-- How long each buffer is. -/
def Region.size (pktLen spsppsLen : ℕ) : Region → ℕ
  | packet => pktLen
  | spspps => spsppsLen
  | startCode => 4
  | header => 1
  | fu => fuSize
  | au => auSize

/-- The buffers that a handler may write to. -/
def Region.writable : Region → Bool
  | fu | au => true
  | _ => false

/-- Offset `x` of the ring is free: it lies between the write pointer and the byte before the read
pointer. -/
def Free (wr rd x : ℕ) : Prop :=
  (x + streamBufSize - wr) % streamBufSize < (rd + streamBufSize - 1 - wr) % streamBufSize

/-- The access stays inside its buffer. -/
def Access.Ok (pktLen spsppsLen : ℕ) : Access → Prop
  | read region pos len => pos + len ≤ region.size pktLen spsppsLen
  | write region pos len => region.writable = true ∧ pos + len ≤ region.size pktLen spsppsLen
  | ring pos len wr rd => pos + len ≤ streamBufSize ∧ ∀ x, pos ≤ x → x < pos + len → Free wr rd x

/-- A computation that logs its accesses. -/
abbrev Prog (α : Type) := Logged Access α

/-- A pointer into a buffer. -/
structure Ptr where
  region : Region
  memory : List UInt8
  pos : ℕ := 0

namespace Ptr

/-- `p + n`. -/
def add (p : Ptr) (n : ℕ) : Ptr := { p with pos := p.pos + n }

/-- `p[i]`. -/
def get (p : Ptr) (i : ℕ) : Prog ℕ :=
  ⟨byteAt p.memory (p.pos + i), [.read p.region (p.pos + i) 1]⟩

/-- The `len` bytes at `p`. -/
def bytes (p : Ptr) (len : ℕ) : List UInt8 := (p.memory.drop p.pos).take len

end Ptr

/-! ## Assembling in `au` -/

/-- `memcpy(st->au + st->au_len, p, len)`, and `au_len` moved on. -/
def copyToAu (st : H264RtpState) (p : Ptr) (len : ℕ) : Prog H264RtpState :=
  ⟨st.pushAu (p.bytes len), [.read p.region p.pos len, .write .au st.auLen len]⟩

def startCodePtr : Ptr := ⟨.startCode, startCode, 0⟩

def rtpAuAppend (st : H264RtpState) (nal : Ptr) (len : ℕ) : Prog H264RtpState :=
  if len = 0 ∨ auSize < st.auLen + startCode.length + len then
    pure { st with auBad := true }
  else do
    let st ← copyToAu st startCodePtr 4
    copyToAu st nal len

def rtpAuAppendBytes (st : H264RtpState) (p : Ptr) (len : ℕ) : Prog H264RtpState :=
  if len = 0 then
    pure st
  else if auSize < st.auLen + len then
    pure { st with auBad := true }
  else
    copyToAu st p len

/-- `rtp_au_flush`; `write_all` reads the first `au_len` bytes of `au`. -/
def rtpAuFlush (out : List (List UInt8)) (st : H264RtpState) :
    Prog (List (List UInt8) × H264RtpState × ℕ) :=
  let r := Stream.rtpAuFlush out st
  if 0 < st.auLen ∧ st.auBad = false then
    ⟨(r.1, r.2, 0), [.read .au 0 st.auLen]⟩
  else
    pure (r.1, r.2, 0)

/-! ## Assembling in the ring -/

/-- `memcpy(bs.virt_uaddr + pos, p, len)`. -/
def copyToRing (h : Decoder) (pos : ℕ) (p : Ptr) (len : ℕ) : Prog Decoder :=
  ⟨h.memcpy pos (p.bytes len),
    [.read p.region p.pos len,
      .ring pos len (h.streamWrPtr - h.streamBufStartAddr) (h.rdPtr - h.streamBufStartAddr)]⟩

def rtpDirectAppend (h : Decoder) (st : H264RtpState) (p : Ptr) (len : ℕ) :
    Prog (Decoder × H264RtpState × Bool) :=
  if len = 0 then
    pure (h, st, true)
  else
    let (h, buf) := vpuDecGetBitstreamBuffer h
    if buf.ret ≠ .success then
      pure (h, { st with auBad := true }, false)
    else if buf.size ≤ st.auLen + len + 512 then
      pure (h, { st with auBad := true }, false)
    else do
      let base := buf.paWrPtr - h.streamBufStartAddr
      let pos := (base + st.auLen) % streamBufSize
      let first := min (streamBufSize - pos) len
      let h ← copyToRing h pos p first
      let h ← (if first < len then copyToRing h 0 (p.add first) (len - first) else pure h)
      pure (h.remark (.staged (p.bytes len)), { st with auLen := st.auLen + len }, true)

def rtpDirectAppendNal (h : Decoder) (st : H264RtpState) (nal : Ptr) (len : ℕ) :
    Prog (Decoder × H264RtpState × Bool) := do
  let r ← rtpDirectAppend h st startCodePtr 4
  if r.2.2 = false then pure r else rtpDirectAppend r.1 r.2.1 nal len

/-! ## The RTP header -/

def rtpH264SeqGap (st : H264RtpState) (pkt : Ptr) (len : ℕ) : Prog (H264RtpState × Bool) :=
  if len < 4 then
    pure (st, true)
  else do
    let hi ← pkt.get 2
    let lo ← pkt.get 3
    let seq := hi * 256 + lo
    let expect := (st.lastSeq + 1) % 65536
    pure (if st.haveSeq = false then
        ({ st with haveSeq := true, lastSeq := seq }, false)
      else if seq = expect then
        ({ st with lastSeq := seq }, false)
      else
        ({ st with lastSeq := seq, fuActive := false, fuLen := 0, needIdr := true }, true))

/-- Where the payload starts; `none` where the handlers return because there is none. -/
def rtpPayloadOff (pkt : Ptr) (len : ℕ) : Prog (Option ℕ) := do
  let b ← pkt.get 0
  let off := 12 + b % 16 * 4
  if b / 16 % 2 = 1 then
    if len < off + 4 then
      pure none
    else do
      let hi ← pkt.get (off + 2)
      let lo ← pkt.get (off + 3)
      let off := off + (4 + (hi * 256 + lo) * 4)
      pure (if len ≤ off then none else some off)
  else
    pure (if len ≤ off then none else some off)

def rtpTimestamp (pkt : Ptr) : Prog ℕ := do
  let b₀ ← pkt.get 4
  let b₁ ← pkt.get 5
  let b₂ ← pkt.get 6
  let b₃ ← pkt.get 7
  pure (b₀ * 16777216 + b₁ * 65536 + b₂ * 256 + b₃)

/-- The frame of the three handlers; `body` gets `pkt + off` and `len - off`. -/
def rtpHandle {α : Type}
    (body : α → H264RtpState → Bool → Bool → Ptr → ℕ → Prog (α × H264RtpState × ℕ))
    (s : α) (st : H264RtpState) (pkt : Ptr) (len : ℕ) : Prog (α × H264RtpState × ℕ) :=
  if len < 12 then
    pure (s, st, 0)
  else do
    let version ← pkt.get 0
    if version / 64 ≠ 2 then
      pure (s, st, 0)
    else do
      let marker ← pkt.get 1
      let ts ← rtpTimestamp pkt
      let gap ← rtpH264SeqGap st pkt len
      let st := rtpNewTs gap.1 gap.2 ts
      let off ← rtpPayloadOff pkt len
      match off with
      | none => pure (s, st, 0)
      | some off => body s st gap.2 (decide (128 ≤ marker)) (pkt.add off) (len - off)

/-! ## The H.264 handlers -/

/-- The parts in which the two H.264 handlers differ. -/
structure Store (α : Type) where
  appendBytes : α → H264RtpState → Ptr → ℕ → Prog (α × H264RtpState)
  appendNal : α → H264RtpState → Ptr → ℕ → Prog (α × H264RtpState)
  fuA : Ptr → ℕ → α → H264RtpState → Bool → Ptr → ℕ → Prog (α × H264RtpState × Bool)
  flush : α → H264RtpState → Prog (α × H264RtpState × ℕ)

section Program

variable {α : Type} (T : Store α) (spspps : Ptr) (spsppsLen : ℕ)

def h264Nal (x : α × H264RtpState) (nal : Ptr) (len : ℕ) : Prog (α × H264RtpState) := do
  let b ← nal.get 0
  let type := b % 32
  if x.2.needIdr = true ∧ type ≠ 5 ∧ type ≠ 7 ∧ type ≠ 8 then
    pure x
  else do
    let st := if type = 5 then { x.2 with auHasIdr := true } else x.2
    let x ← (if type = 5 ∧ 0 < spsppsLen then T.appendBytes x.1 st spspps spsppsLen
      else pure (x.1, st))
    T.appendNal x.1 x.2 nal len

/-- The loop over a STAP-A packet, from `pkt[p]` on.  Each round takes at least three bytes. -/
def stapLoop (pkt : Ptr) (len : ℕ) : ℕ → ℕ → α × H264RtpState → Prog (α × H264RtpState)
  | 0, _, x => pure x
  | fuel + 1, p, x =>
    if len < p + 2 then
      pure x
    else do
      let hi ← pkt.get p
      let lo ← pkt.get (p + 1)
      let n := hi * 256 + lo
      if n = 0 ∨ len < p + 2 + n then
        pure x
      else do
        let x ← h264Nal T spspps spsppsLen x (pkt.add (p + 2)) n
        stapLoop pkt len fuel (p + 2 + n) x

def maybeFlush (marker : Bool) (x : α × H264RtpState) : Prog (α × H264RtpState × ℕ) :=
  if marker then T.flush x.1 x.2 else pure (x.1, x.2, 0)

def h264Body (s : α) (st : H264RtpState) (seqGap marker : Bool) (pkt : Ptr) (len : ℕ) :
    Prog (α × H264RtpState × ℕ) := do
  let b ← pkt.get 0
  let type := b % 32
  if 1 ≤ type ∧ type ≤ 23 then do
    let x ← h264Nal T spspps spsppsLen (s, st) pkt len
    maybeFlush T marker x
  else if type = 24 then do
    let x ← stapLoop T spspps spsppsLen pkt len len 1 (s, st)
    maybeFlush T marker x
  else if type = 28 ∧ 2 ≤ len then do
    let r ← T.fuA spspps spsppsLen s st seqGap pkt len
    if r.2.2 then maybeFlush T marker (r.1, r.2.1) else pure (r.1, r.2.1, 0)
  else
    maybeFlush T marker (s, st)

end Program

/-- The block `if (start)` of `handle_rtp_h264`; the header is stored at `fu[0]`. -/
def fuBeginBuffered (spspps : Ptr) (spsppsLen : ℕ) (st : H264RtpState) (hdr : UInt8) :
    Prog H264RtpState := do
  let st ← (⟨{ st with fu := [hdr], fuLen := 1 }, [.write .fu 0 1]⟩ : Prog H264RtpState)
  let type := hdr.toNat % 32
  let st := if type = 5 then { st with auHasIdr := true } else st
  let st ← (if type = 5 ∧ 0 < spsppsLen then rtpAuAppendBytes st spspps spsppsLen else pure st)
  pure { st with fuActive := true }

/-- `memcpy(st->fu + st->fu_len, pkt + 2, len - 2)`, and `fu_len` moved on. -/
def copyToFu (st : H264RtpState) (p : Ptr) (len : ℕ) : Prog H264RtpState :=
  ⟨{ st with fu := st.fu.take st.fuLen ++ p.bytes len, fuLen := st.fuLen + len },
    [.read p.region p.pos len, .write .fu st.fuLen len]⟩

def fuJoinBuffered (st : H264RtpState) (stop : Bool) (pkt : Ptr) (len : ℕ) :
    Prog (H264RtpState × Bool) :=
  if st.fuActive = false ∨ fuSize < st.fuLen + (len - 2) then
    pure ({ st with fuActive := false }, false)
  else do
    let st ← copyToFu st (pkt.add 2) (len - 2)
    if stop then do
      let st ← rtpAuAppend st ⟨.fu, st.fu, 0⟩ st.fuLen
      pure ({ st with fuActive := false, fuLen := 0 }, true)
    else
      pure (st, true)

def fuABuffered (spspps : Ptr) (spsppsLen : ℕ) (out : List (List UInt8)) (st : H264RtpState)
    (seqGap : Bool) (pkt : Ptr) (len : ℕ) : Prog (List (List UInt8) × H264RtpState × Bool) := do
  let b₀ ← pkt.get 0
  let b₁ ← pkt.get 1
  let hdr := UInt8.ofNat (b₀ / 32 * 32 + b₁ % 32)
  if seqGap = true ∨ st.needIdr = true ∧ hdr.toNat % 32 ≠ 5 then
    pure (out, st, true)
  else do
    let st ← (if 128 ≤ b₁ then fuBeginBuffered spspps spsppsLen st hdr else pure st)
    let r ← fuJoinBuffered st (decide (b₁ / 64 % 2 = 1)) pkt len
    pure (out, r.1, r.2)

/-- The block `if (start)` of `handle_rtp_h264_direct`; the header is passed as `&hdr`. -/
def fuBeginDirect (spspps : Ptr) (spsppsLen : ℕ) (h : Decoder) (st : H264RtpState) (hdr : UInt8) :
    Prog (Decoder × H264RtpState) := do
  let type := hdr.toNat % 32
  let st := if type = 5 then { st with auHasIdr := true } else st
  let r ← (if type = 5 ∧ 0 < spsppsLen then rtpDirectAppend h st spspps spsppsLen
    else pure (h, st, true))
  let r ← rtpDirectAppendNal r.1 r.2.1 ⟨.header, [hdr], 0⟩ 1
  pure (r.1, { r.2.1 with fuActive := true })

def fuJoinDirect (h : Decoder) (st : H264RtpState) (stop : Bool) (pkt : Ptr) (len : ℕ) :
    Prog (Decoder × H264RtpState) :=
  if st.fuActive = false then
    pure (h, { st with auBad := true })
  else do
    let r ← rtpDirectAppend h st (pkt.add 2) (len - 2)
    pure (r.1, if stop then { r.2.1 with fuActive := false } else r.2.1)

def fuADirect (spspps : Ptr) (spsppsLen : ℕ) (h : Decoder) (st : H264RtpState) (seqGap : Bool)
    (pkt : Ptr) (len : ℕ) : Prog (Decoder × H264RtpState × Bool) := do
  let b₀ ← pkt.get 0
  let b₁ ← pkt.get 1
  let hdr := UInt8.ofNat (b₀ / 32 * 32 + b₁ % 32)
  if seqGap = true ∨ st.needIdr = true ∧ hdr.toNat % 32 ≠ 5 then
    pure (h, st, true)
  else do
    let r ← (if 128 ≤ b₁ then fuBeginDirect spspps spsppsLen h st hdr else pure (h, st))
    let r ← fuJoinDirect r.1 r.2 (decide (b₁ / 64 % 2 = 1)) pkt len
    pure (r.1, r.2, true)

def bufferedStore : Store (List (List UInt8)) where
  appendBytes out st p len := do
    let st ← rtpAuAppendBytes st p len
    pure (out, st)
  appendNal out st nal len := do
    let st ← rtpAuAppend st nal len
    pure (out, st)
  fuA := fuABuffered
  flush := rtpAuFlush

def directStore : Store Decoder where
  appendBytes h st p len := do
    let r ← rtpDirectAppend h st p len
    pure (r.1, r.2.1)
  appendNal h st nal len := do
    let r ← rtpDirectAppendNal h st nal len
    pure (r.1, r.2.1)
  fuA := fuADirect
  flush h st := pure (rtpDirectFlush h st)

/-- A packet and the parameter sets, as the handlers get them. -/
def handleRtpH264 (spspps : List UInt8) (out : List (List UInt8)) (st : H264RtpState)
    (pkt : List UInt8) : Prog (List (List UInt8) × H264RtpState × ℕ) :=
  rtpHandle (h264Body bufferedStore ⟨.spspps, spspps, 0⟩ spspps.length) out st ⟨.packet, pkt, 0⟩
    pkt.length

def handleRtpH264Direct (spspps : List UInt8) (h : Decoder) (st : H264RtpState)
    (pkt : List UInt8) : Prog (Decoder × H264RtpState × ℕ) :=
  rtpHandle (h264Body directStore ⟨.spspps, spspps, 0⟩ spspps.length) h st ⟨.packet, pkt, 0⟩
    pkt.length

/-! ## The MPEG-4 handler -/

/-- `p[i..i+3]` is a VOP start code; the comparison stops at the first byte that differs. -/
def vopAt (p : Ptr) (i : ℕ) : Prog Bool := do
  let b₀ ← p.get i
  if b₀ ≠ 0 then
    pure false
  else do
    let b₁ ← p.get (i + 1)
    if b₁ ≠ 0 then
      pure false
    else do
      let b₂ ← p.get (i + 2)
      if b₂ ≠ 1 then
        pure false
      else do
        let b₃ ← p.get (i + 3)
        pure (decide (b₃ = 0xb6))

/-- The loop of `mpeg4_payload_has_i_vop` from `i` on, with at most `fuel` rounds. -/
def mpeg4PayloadHasIVop (p : Ptr) (len : ℕ) : ℕ → ℕ → Prog Bool
  | 0, _ => pure false
  | fuel + 1, i =>
    if len ≤ i + 4 then
      pure false
    else do
      let vop ← vopAt p i
      if vop then do
        let b ← p.get (i + 4)
        pure (decide (b / 64 = 0))
      else
        mpeg4PayloadHasIVop p len fuel (i + 1)

/-- The loop of `mpeg4_payload_has_vop` from `i` on, with at most `fuel` rounds. -/
def mpeg4PayloadHasVop (p : Ptr) (len : ℕ) : ℕ → ℕ → Prog Bool
  | 0, _ => pure false
  | fuel + 1, i =>
    if len ≤ i + 3 then
      pure false
    else do
      let vop ← vopAt p i
      if vop then pure true else mpeg4PayloadHasVop p len fuel (i + 1)

/-- The reads of the printed line: `payload[i]` if there is one. -/
def peek (p : Ptr) (len i : ℕ) : Prog ℕ := if i < len then p.get i else pure 0

def mpeg4Body (h : Decoder) (st : H264RtpState) (_seqGap marker : Bool) (payload : Ptr)
    (len : ℕ) : Prog (Decoder × H264RtpState × ℕ) := do
  let _ ← peek payload len 0
  let _ ← peek payload len 1
  let _ ← peek payload len 2
  let _ ← peek payload len 3
  let iVop ← mpeg4PayloadHasIVop payload len len 0
  let st := if iVop then { st with auHasIdr := true, needIdr := false } else st
  -- `need_idr && mpeg4_payload_has_vop(..)`: the scan is made only while the handler waits.
  let drop ← (if st.needIdr = true then mpeg4PayloadHasVop payload len len 0 else pure false)
  let r ← (if drop then pure (h, st, true) else rtpDirectAppend h st payload len)
  if marker then pure (rtpDirectFlush r.1 r.2.1) else pure (r.1, r.2.1, 0)

def handleRtpMpeg4Direct (h : Decoder) (st : H264RtpState) (pkt : List UInt8) :
    Prog (Decoder × H264RtpState × ℕ) :=
  rtpHandle mpeg4Body h st ⟨.packet, pkt, 0⟩ pkt.length

end Memory
end Stream
end ToonVpu
