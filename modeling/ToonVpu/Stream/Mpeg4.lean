import ToonVpu.Stream.Sender

/-!
# Mpeg4 — MPEG-4 over RTP into the bitstream ring (`apps/vpu_stream.c`)

`handle_rtp_mpeg4_direct` stages the payloads of an access unit and commits them with the marker
packet.  After a sequence gap it waits for an I-VOP: it looks in each packet for a VOP start code
and drops the packets that have one, until one starts an I-VOP.

The results are about whole streams behind a lossy network: which access units can reach the ring
incomplete, and what can reach it while the handler waits.
-/

namespace ToonVpu
namespace Stream

open Foundation
open Foundation.Circular
open Lib

/-! ## The handler -/

/-- Looks at the first VOP start code `00 00 01 b6` that is followed by a byte, and there for the
coding type `00`. -/
def mpeg4PayloadHasIVop : List UInt8 → Bool
  | a :: b :: c :: d :: e :: rest =>
    if a = 0 ∧ b = 0 ∧ c = 1 ∧ d = 0xb6 then
      decide (e.toNat / 64 = 0)
    else
      mpeg4PayloadHasIVop (b :: c :: d :: e :: rest)
  | _ => false

/-- Looks for a whole VOP start code. -/
def mpeg4PayloadHasVop : List UInt8 → Bool
  | a :: b :: c :: d :: rest =>
    if a = 0 ∧ b = 0 ∧ c = 1 ∧ d = 0xb6 then
      true
    else
      mpeg4PayloadHasVop (b :: c :: d :: rest)
  | _ => false

/-- `handle_rtp_mpeg4_direct` from the payload on. -/
def mpeg4Body (h : Decoder) (st : H264RtpState) (_seqGap marker : Bool) (payload : List UInt8) :
    Decoder × H264RtpState × ℕ :=
  let st :=
    if mpeg4PayloadHasIVop payload then { st with auHasIdr := true, needIdr := false } else st
  let (h, st) :=
    -- Pictures are dropped up to the next I-VOP.
    if st.needIdr = true ∧ mpeg4PayloadHasVop payload = true then
      (h, st)
    else
      let (h, st, _) := rtpDirectAppend h st payload
      (h, st)
  if marker then
    rtpDirectFlush h st
  else
    (h, st, 0)

def handleRtpMpeg4Direct (h : Decoder) (st : H264RtpState) (pkt : List UInt8) :
    Decoder × H264RtpState × ℕ :=
  rtpHandle mpeg4Body h st pkt

/-! ## One packet -/

/-- Whether the handler still waits for an I-VOP after a packet. -/
def waitsAfter (need : Bool) (payload : List UInt8) : Bool := need && !mpeg4PayloadHasIVop payload

/-- What the handler stages of a packet. -/
def kept (need : Bool) (payload : List UInt8) : List UInt8 :=
  if waitsAfter need payload && mpeg4PayloadHasVop payload then [] else payload

/-- The flags after the payload was looked at, before a flush. -/
def mpeg4Flags (st : H264RtpState) (payload : List UInt8) (bad : Bool) (len : ℕ) :
    H264RtpState :=
  { st with
    auHasIdr := st.auHasIdr || mpeg4PayloadHasIVop payload
    needIdr := waitsAfter st.needIdr payload
    auBad := bad
    auLen := len }

section Body

variable {bs : BitstreamMem} {h : Decoder} {st : H264RtpState} {bytes : List UInt8}

/-- The staging half of the body: all of the packet is staged, or it is not and the unit is bad. -/
theorem mpeg4Stage_spec (hs : Staged bs h st bytes) (payload : List UInt8) :
    ∃ h' bad bytes', Fifo.commits h'.events = Fifo.commits h.events ∧
      ((bad = st.auBad ∧ bytes' = bytes ++ kept st.needIdr payload) ∨
        (bad = true ∧ bytes' = bytes)) ∧
      Staged bs h' (mpeg4Flags st payload bad bytes'.length) bytes' ∧
      ∀ seqGap marker, mpeg4Body h st seqGap marker payload =
        if marker then rtpDirectFlush h' (mpeg4Flags st payload bad bytes'.length)
        else (h', mpeg4Flags st payload bad bytes'.length, 0) := by
  have hlen : st.auLen = bytes.length := hs.auLen_eq
  generalize hst₁ : (if mpeg4PayloadHasIVop payload then
    { st with auHasIdr := true, needIdr := false } else st) = st₁
  have hflags : ∀ bad len, { st₁ with auBad := bad, auLen := len } =
      mpeg4Flags st payload bad len := by
    intro bad len
    rw [← hst₁]
    cases hI : mpeg4PayloadHasIVop payload <;> simp [mpeg4Flags, waitsAfter, hI]
  have hneed : st₁.needIdr = waitsAfter st.needIdr payload := congrArg H264RtpState.needIdr
    (hflags st.auBad st.auLen)
  have hsame : st₁ = mpeg4Flags st payload st.auBad st.auLen := by
    rw [← hflags, ← hst₁]
    split <;> rfl
  have hs₁ : Staged bs h st₁ bytes := hs.setFlags (by rw [hsame]; rfl)
  -- The filter keeps the packet out, or it is staged where there is room.
  by_cases hskip : st₁.needIdr = true ∧ mpeg4PayloadHasVop payload = true
  · have hkept : kept st.needIdr payload = [] := by
      rw [hneed] at hskip
      simp [kept, hskip.1, hskip.2]
    refine ⟨h, st.auBad, bytes, rfl, .inl ⟨rfl, by simp [hkept]⟩, ?_, ?_⟩
    · exact hs.setFlags hlen.symm
    · intro seqGap marker
      simp only [mpeg4Body, hst₁, if_pos hskip]
      rw [← hlen, ← hsame]
  · have hkept : kept st.needIdr payload = payload := by
      rw [hneed] at hskip
      unfold kept
      rw [if_neg (by simpa using hskip)]
    obtain ⟨h', hcommits, -, ⟨heq, hst⟩ | ⟨heq, hst, -⟩⟩ :=
      rtpDirectAppend_spec hs₁ payload
    · have hlen' : st₁.auLen + payload.length = (bytes ++ payload).length := by
        rw [hsame, List.length_append, ← hlen]
        rfl
      have hafter : { st₁ with auLen := st₁.auLen + payload.length } =
          mpeg4Flags st payload st.auBad (bytes ++ payload).length := by
        rw [hlen', ← hflags, hsame]
        rfl
      rw [hafter] at heq hst
      refine ⟨h', st.auBad, bytes ++ payload, hcommits, .inl ⟨rfl, by rw [hkept]⟩, hst, ?_⟩
      intro seqGap marker
      simp only [mpeg4Body, hst₁, if_neg hskip, heq]
    · have hafter : { st₁ with auBad := true } = mpeg4Flags st payload true bytes.length := by
        rw [← hflags, ← hlen, hsame]
        rfl
      rw [hafter] at heq hst
      refine ⟨h', true, bytes, hcommits, .inr ⟨rfl, rfl⟩, hst, ?_⟩
      intro seqGap marker
      simp only [mpeg4Body, hst₁, if_neg hskip, heq]

theorem mpeg4Body_frame : BodyFrame mpeg4Body := by
  intro h st seqGap marker payload
  unfold mpeg4Body
  have hvop : SameHead st (if mpeg4PayloadHasIVop payload then
      { st with auHasIdr := true, needIdr := false } else st) := by
    split <;> exact ⟨rfl, rfl, rfl, rfl⟩
  generalize (if mpeg4PayloadHasIVop payload then
    { st with auHasIdr := true, needIdr := false } else st) = st₁ at hvop
  by_cases hskip : st₁.needIdr = true ∧ mpeg4PayloadHasVop payload = true
  · simp only [if_pos hskip]
    cases marker with
    | true => exact hvop.directFlush h
    | false => exact hvop
  · simp only [if_neg hskip]
    cases marker with
    | true => exact (hvop.directAppend h payload).directFlush _
    | false => exact hvop.directAppend h payload

end Body

/-! ## One delivery -/

/-- The MPEG-4 receiver behind the network. -/
abbrev mpeg4Send : Link Decoder → WirePacket → Link Decoder := Link.send handleRtpMpeg4Direct

abbrev mpeg4Run : Link Decoder → List WirePacket → Link Decoder := Link.run handleRtpMpeg4Direct

/-- What a receiver has committed, one entry for each access unit. -/
abbrev commitsOf (l : Link Decoder) : List (List UInt8) := Fifo.commits l.out.events

section Deliver

variable {bs : BitstreamMem} {l : Link Decoder} {bytes bytes₁ : List UInt8} {w : WirePacket}

theorem DirectInv.mpeg4Lose (h : DirectInv bs l bytes) (hgone : w.packet.arrives = false) :
    DirectInv bs (mpeg4Send l w) bytes := by
  have hseq := h.seq.send mpeg4Body_frame w
  have heq : Link.send (rtpHandle mpeg4Body) l w =
      { l with sent := l.sent + 1, lost := l.lost.map (· + 1) } := Link.send_of_lost hgone
  rw [heq] at hseq
  have hlose := h.lose hseq
  rwa [← heq] at hlose

/-- The effect of a delivered packet: before a flush, `bytes'` are staged and the unit is `bad` or
not; the marker packet flushes. -/
structure Mpeg4Outcome (bs : BitstreamMem) (l : Link Decoder) (w : WirePacket) (bad : Bool)
    (bytes' : List UInt8) : Prop where
  stay : w.packet.payload = [] ∨ w.marker = false →
    DirectInv bs (mpeg4Send l w) bytes' ∧
      (mpeg4Send l w).st = mpeg4Flags (rtpEnter l.st (w.encode l.sent)).1 w.packet.payload bad
        bytes'.length ∧
      commitsOf (mpeg4Send l w) = commitsOf l
  flush : w.packet.payload ≠ [] ∧ w.marker = true →
    DirectInv bs (mpeg4Send l w) [] ∧
      (mpeg4Send l w).st = flushed (mpeg4Flags (rtpEnter l.st (w.encode l.sent)).1
        w.packet.payload bad bytes'.length) ∧
      commitsOf (mpeg4Send l w) = commitsOf l ++
        (if bytes' ≠ [] ∧ bad = false then [bytes'] else [])

/-- A delivered packet is staged behind the bytes `bytes₁` that the prologue leaves, or it makes
the unit bad. -/
theorem mpeg4_deliver (h : DirectInv bs l bytes) (harr : w.packet.arrives = true)
    (hs₁ : Staged bs l.out (rtpEnter l.st (w.encode l.sent)).1 bytes₁) :
    ∃ bad bytes', Mpeg4Outcome bs l w bad bytes' ∧
      ((bad = (rtpEnter l.st (w.encode l.sent)).1.auBad ∧
          bytes' = bytes₁ ++
            kept (rtpEnter l.st (w.encode l.sent)).1.needIdr w.packet.payload) ∨
        (bad = true ∧ bytes' = bytes₁)) := by
  have hseq := h.seq.send mpeg4Body_frame w
  have hhead := Link.send_head mpeg4Body_frame h.seq harr
  have hsend : mpeg4Send l w = Link.send (rtpHandle mpeg4Body) l w := rfl
  rw [← hsend] at hseq hhead
  have hopen : ∀ bytes', Staged bs (mpeg4Send l w).out (mpeg4Send l w).st bytes' →
      DirectInv bs (mpeg4Send l w) bytes' := by
    intro bytes' hst
    refine ⟨hst, hseq, ?_, ?_⟩
    · rw [hhead.2.2.1, hsend, Link.send_of_arrives harr]
      rfl
    · intro hclosed
      exact absurd (hclosed.symm.trans hhead.2.2.1) Bool.false_ne_true
  have hresult : ∀ d st n, rtpHandle mpeg4Body l.out l.st (w.encode l.sent) = (d, st, n) →
      (mpeg4Send l w).out = d ∧ (mpeg4Send l w).st = st := by
    intro d st n hr
    rw [hsend, Link.send_of_arrives harr, hr]
    exact ⟨rfl, rfl⟩
  rw [rtpHandle_encode] at hresult
  by_cases hpay : w.packet.payload = []
  · -- An empty packet stops after the prologue.
    obtain ⟨hout, hst⟩ := hresult _ _ _ (if_pos hpay)
    refine ⟨(rtpEnter l.st (w.encode l.sent)).1.auBad, bytes₁, ⟨?_, ?_⟩,
      .inl ⟨rfl, by simp [hpay, kept, mpeg4PayloadHasVop]⟩⟩
    · intro _
      refine ⟨hopen bytes₁ (by rw [hout, hst]; exact hs₁), ?_, by rw [commitsOf, hout]⟩
      rw [hst, hpay, ← hs₁.auLen_eq]
      simp [mpeg4Flags, waitsAfter, mpeg4PayloadHasIVop]
    · rintro ⟨hne, -⟩
      exact absurd hpay hne
  · obtain ⟨h', bad, bytes', hcommits, halt, hst, hbody⟩ := mpeg4Stage_spec hs₁ w.packet.payload
    rw [if_neg hpay, hbody] at hresult
    refine ⟨bad, bytes', ⟨?_, ?_⟩, halt⟩
    · intro hno
      have hmark : w.marker = false := hno.resolve_left hpay
      rw [hmark] at hresult
      obtain ⟨hout, hst'⟩ := hresult _ _ _ rfl
      exact ⟨hopen bytes' (by rw [hout, hst']; exact hst), hst', by rw [commitsOf, hout, hcommits]⟩
    · rintro ⟨-, hmark⟩
      obtain ⟨h'', heq, hst', hcommits'⟩ := rtpDirectFlush_spec hst
      rw [hmark, if_pos rfl] at hresult
      obtain ⟨hout, hst''⟩ := hresult _ _ _ heq
      refine ⟨hopen [] (by rw [hout, hst'']; exact hst'), hst'', ?_⟩
      rw [commitsOf, hout, hcommits', hcommits]
      rfl

/-- Every delivery or loss leaves a receiver that stages something. -/
theorem DirectInv.mpeg4Step (h : DirectInv bs l bytes) (w : WirePacket) :
    ∃ bytes', DirectInv bs (mpeg4Send l w) bytes' := by
  by_cases harr : w.packet.arrives = true
  · obtain ⟨bytes₁, hs₁, -⟩ := h.enter w
    obtain ⟨bad, bytes', hout, -⟩ := mpeg4_deliver h harr hs₁
    by_cases hno : w.packet.payload = [] ∨ w.marker = false
    · exact ⟨bytes', (hout.stay hno).1⟩
    · have hyes : w.packet.payload ≠ [] ∧ w.marker = true := by simpa using hno
      exact ⟨[], (hout.flush hyes).1⟩
  · exact ⟨bytes, h.mpeg4Lose (by simpa using harr)⟩

theorem DirectInv.mpeg4Run (h : DirectInv bs l bytes) (ws : List WirePacket) :
    ∃ bytes', DirectInv bs (mpeg4Run l ws) bytes' := by
  induction ws generalizing l bytes with
  | nil => exact ⟨bytes, h⟩
  | cons w ws ih =>
    obtain ⟨bytes', h'⟩ := h.mpeg4Step w
    exact ih h'

end Deliver

end Stream
end ToonVpu
