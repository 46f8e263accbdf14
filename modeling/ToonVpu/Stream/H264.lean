import ToonVpu.Stream.Sender

/-!
# H264 — the two H.264 depacketizers (`apps/vpu_stream.c`)

`handle_rtp_h264` assembles an access unit in `au` and writes it to a descriptor;
`handle_rtp_h264_direct` assembles it in the bitstream ring and commits it.  They are one program
over two stores: how bytes are appended, how the fragments of a NAL unit are joined, and how the
unit is flushed differ, the rest does not.
-/

namespace ToonVpu
namespace Stream

open Foundation
open Lib

/-! ## The program -/

/-- The parts in which the two handlers differ. -/
structure AuStore (α : Type*) where
  appendBytes : α → H264RtpState → List UInt8 → α × H264RtpState
  appendNal : α → H264RtpState → List UInt8 → α × H264RtpState
  /-- An FU-A packet, with the parameter sets and `seq_gap`; `false` where the handler returns at
  once, past its flush. -/
  fuA : List UInt8 → α → H264RtpState → Bool → List UInt8 → α × H264RtpState × Bool
  flush : α → H264RtpState → α × H264RtpState × ℕ

/-- `nal[0] & 0x1f`. -/
def nalType (nal : List UInt8) : ℕ := byteAt nal 0 % 32

/-- The NAL units of a STAP-A packet, up to the first one that is empty or cut off.  Each round
takes at least three bytes, so `fuel` is the length of the packet. -/
def stapNals : ℕ → List UInt8 → List (List UInt8)
  | 0, _ => []
  | fuel + 1, rest =>
    if rest.length < 2 then
      []
    else
      let n := byteAt rest 0 * 256 + byteAt rest 1
      let rest := rest.drop 2
      if n = 0 ∨ rest.length < n then
        []
      else
        rest.take n :: stapNals fuel (rest.drop n)

section Program

variable {α : Type*} (S : AuStore α) (spspps : List UInt8)

/-- One NAL unit, alone in its packet or inside a STAP-A packet. -/
def h264Nal (x : α × H264RtpState) (nal : List UInt8) : α × H264RtpState :=
  let (s, st) := x
  if st.needIdr = true ∧ nalType nal ≠ 5 ∧ nalType nal ≠ 7 ∧ nalType nal ≠ 8 then
    (s, st)
  else
    let st := if nalType nal = 5 then { st with auHasIdr := true } else st
    let (s, st) :=
      if nalType nal = 5 ∧ 0 < spspps.length then S.appendBytes s st spspps else (s, st)
    S.appendNal s st nal

/-- The label `maybe_flush`. -/
def maybeFlush (marker : Bool) (x : α × H264RtpState) : α × H264RtpState × ℕ :=
  if marker then S.flush x.1 x.2 else (x.1, x.2, 0)

/-- `handle_rtp_h264` and `handle_rtp_h264_direct` from the payload on. -/
def h264Body (s : α) (st : H264RtpState) (seqGap marker : Bool) (payload : List UInt8) :
    α × H264RtpState × ℕ :=
  let type := nalType payload
  if 1 ≤ type ∧ type ≤ 23 then
    maybeFlush S marker (h264Nal S spspps (s, st) payload)
  else if type = 24 then
    maybeFlush S marker
      ((stapNals payload.length (payload.drop 1)).foldl (h264Nal S spspps) (s, st))
  else if type = 28 ∧ 2 ≤ payload.length then
    let (s, st, goOn) := S.fuA spspps s st seqGap payload
    if goOn then maybeFlush S marker (s, st) else (s, st, 0)
  else
    maybeFlush S marker (s, st)

end Program

/-- `pkt[1] & 0x80` of an FU-A packet. -/
def fuStart (payload : List UInt8) : Bool := decide (128 ≤ byteAt payload 1)

/-- `pkt[1] & 0x40` of an FU-A packet. -/
def fuEnd (payload : List UInt8) : Bool := decide (byteAt payload 1 / 64 % 2 = 1)

/-- The header of the fragmented NAL unit. -/
def fuHdr (payload : List UInt8) : UInt8 :=
  UInt8.ofNat (byteAt payload 0 / 32 * 32 + byteAt payload 1 % 32)

def fuType (payload : List UInt8) : ℕ := byteAt payload 1 % 32

/-- The block `if (start)` of `handle_rtp_h264`. -/
def fuBeginBuffered (spspps : List UInt8) (st : H264RtpState) (payload : List UInt8) :
    H264RtpState :=
  let st := { st with fu := [fuHdr payload], fuLen := 1 }
  let st := if fuType payload = 5 then { st with auHasIdr := true } else st
  let st := if fuType payload = 5 ∧ 0 < spspps.length then rtpAuAppendBytes st spspps else st
  { st with fuActive := true }

/-- What `handle_rtp_h264` does with the data of a fragment. -/
def fuJoinBuffered (st : H264RtpState) (payload : List UInt8) : H264RtpState × Bool :=
  if st.fuActive = false ∨ fuSize < st.fuLen + (payload.length - 2) then
    -- Dropped without a trace: the unit is not marked bad, and not flushed either.
    ({ st with fuActive := false }, false)
  else
    let st :=
      { st with
        fu := st.fu.take st.fuLen ++ payload.drop 2
        fuLen := st.fuLen + (payload.length - 2) }
    if fuEnd payload then
      let st := rtpAuAppend st (st.fu.take st.fuLen)
      ({ st with fuActive := false, fuLen := 0 }, true)
    else
      (st, true)

/-- The FU-A part of `handle_rtp_h264`: fragments are joined in `fu`. -/
def fuABuffered (spspps : List UInt8) (out : List (List UInt8)) (st : H264RtpState)
    (seqGap : Bool) (payload : List UInt8) : List (List UInt8) × H264RtpState × Bool :=
  if seqGap = true ∨ st.needIdr = true ∧ fuType payload ≠ 5 then
    (out, st, true)
  else
    let st := if fuStart payload then fuBeginBuffered spspps st payload else st
    let (st, goOn) := fuJoinBuffered st payload
    (out, st, goOn)

/-- The block `if (start)` of `handle_rtp_h264_direct`. -/
def fuBeginDirect (spspps : List UInt8) (h : Decoder) (st : H264RtpState)
    (payload : List UInt8) : Decoder × H264RtpState :=
  let st := if fuType payload = 5 then { st with auHasIdr := true } else st
  let (h, st) :=
    if fuType payload = 5 ∧ 0 < spspps.length then
      let (h, st, _) := rtpDirectAppend h st spspps
      (h, st)
    else
      (h, st)
  let (h, st, _) := rtpDirectAppendNal h st [fuHdr payload]
  (h, { st with fuActive := true })

/-- What `handle_rtp_h264_direct` does with the data of a fragment. -/
def fuJoinDirect (h : Decoder) (st : H264RtpState) (payload : List UInt8) :
    Decoder × H264RtpState :=
  if st.fuActive = false then
    (h, { st with auBad := true })
  else
    let (h, st, _) := rtpDirectAppend h st (payload.drop 2)
    if fuEnd payload then (h, { st with fuActive := false }) else (h, st)

/-- The FU-A part of `handle_rtp_h264_direct`: fragments are joined in the ring. -/
def fuADirect (spspps : List UInt8) (h : Decoder) (st : H264RtpState) (seqGap : Bool)
    (payload : List UInt8) : Decoder × H264RtpState × Bool :=
  if seqGap = true ∨ st.needIdr = true ∧ fuType payload ≠ 5 then
    (h, st, true)
  else
    let (h, st) := if fuStart payload then fuBeginDirect spspps h st payload else (h, st)
    let (h, st) := fuJoinDirect h st payload
    (h, st, true)

/-- The store of `handle_rtp_h264`; its output lists what was written, one entry for each access
unit. -/
def bufferedStore : AuStore (List (List UInt8)) where
  appendBytes out st p := (out, rtpAuAppendBytes st p)
  appendNal out st nal := (out, rtpAuAppend st nal)
  fuA := fuABuffered
  flush out st :=
    let (out, st) := rtpAuFlush out st
    (out, st, 0)

/-- The store of `handle_rtp_h264_direct`. -/
def directStore : AuStore Decoder where
  appendBytes h st p :=
    let (h, st, _) := rtpDirectAppend h st p
    (h, st)
  appendNal h st nal :=
    let (h, st, _) := rtpDirectAppendNal h st nal
    (h, st)
  fuA := fuADirect
  flush := rtpDirectFlush

def handleRtpH264 (spspps : List UInt8) : Handler (List (List UInt8)) :=
  rtpHandle (h264Body bufferedStore spspps)

def handleRtpH264Direct (spspps : List UInt8) : Handler Decoder :=
  rtpHandle (h264Body directStore spspps)

end Stream
end ToonVpu
