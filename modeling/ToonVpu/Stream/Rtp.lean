import ToonVpu.Lib.Bitstream

/-!
# Rtp — the receiver state and the two places an access unit is assembled in (`apps/vpu_stream.c`)

The three RTP handlers share one state record, one prologue (sequence gap, change of timestamp)
and one walk over the RTP header; these are here, with the functions that assemble an access
unit.  A buffered access unit is assembled in `au` and written to a descriptor; a direct one is
assembled in the bitstream ring, behind the write pointer, and committed by moving that pointer.
-/

namespace ToonVpu
namespace Stream

open Foundation
open Foundation.Circular
open Lib

/-! ## State -/

/-- `STREAM_BUF_SIZE`, the length of the bitstream ring. -/
def streamBufSize : ℕ := 1048576

/-- `sizeof(st->fu)`. -/
def fuSize : ℕ := 131072

/-- `sizeof(st->au)`. -/
def auSize : ℕ := 524288

/-- `struct h264_rtp_state`; the defaults are the zeroed state.  The counters that only limit
logging are left out. -/
structure H264RtpState where
  fu : List UInt8 := []
  au : List UInt8 := []
  fuLen : ℕ := 0
  fuActive : Bool := false
  auLen : ℕ := 0
  auBad : Bool := false
  auHasIdr : Bool := false
  auHaveTs : Bool := false
  auTs : ℕ := 0
  haveSeq : Bool := false
  lastSeq : ℕ := 0
  needIdr : Bool := false
  deriving DecidableEq, Repr

/-- The bitstream buffer `bs`.  The kernel hands it out from lowmem pages, far enough below the
end of the 32-bit physical address space. -/
structure BitstreamMem where
  phyAddr : ℕ
  below : phyAddr + 2 * streamBufSize ≤ 4294967296

/-! ## Reading a packet -/

/-- The byte `pkt[i]`. -/
def byteAt (pkt : List UInt8) (i : ℕ) : ℕ := (pkt.getD i 0).toNat

def rtpMarker (pkt : List UInt8) : Bool := decide (128 ≤ byteAt pkt 1)

def rtpSeq (pkt : List UInt8) : ℕ := byteAt pkt 2 * 256 + byteAt pkt 3

def rtpTs (pkt : List UInt8) : ℕ :=
  byteAt pkt 4 * 16777216 + byteAt pkt 5 * 65536 + byteAt pkt 6 * 256 + byteAt pkt 7

/-- The test every handler starts with: a whole fixed header, version 2. -/
def rtpWellFormed (pkt : List UInt8) : Bool := decide (12 ≤ pkt.length ∧ byteAt pkt 0 / 64 = 2)

/-- What follows the fixed header, the CSRC list and the extension; `none` where the handlers
return because nothing does. -/
def rtpPayload (pkt : List UInt8) : Option (List UInt8) :=
  let cc := byteAt pkt 0 % 16
  let off := 12 + cc * 4
  if byteAt pkt 0 / 16 % 2 = 1 then
    if pkt.length < off + 4 then
      none
    else
      let extLen := byteAt pkt (off + 2) * 256 + byteAt pkt (off + 3)
      let off := off + (4 + extLen * 4)
      if pkt.length ≤ off then none else some (pkt.drop off)
  else
    if pkt.length ≤ off then none else some (pkt.drop off)

/-! ## The shared prologue -/

/-- `rtp_au_reset`, and the identical `rtp_direct_reset`. -/
def rtpAuReset (st : H264RtpState) : H264RtpState :=
  { st with auLen := 0, auBad := false, auHasIdr := false }

def rtpDirectReset (st : H264RtpState) : H264RtpState := rtpAuReset st

def rtpH264SeqGap (st : H264RtpState) (pkt : List UInt8) : H264RtpState × Bool :=
  if pkt.length < 4 then
    (st, true)
  else
    let seq := rtpSeq pkt
    if st.haveSeq = false then
      ({ st with haveSeq := true, lastSeq := seq }, false)
    else
      let expect := (st.lastSeq + 1) % 65536
      if seq = expect then
        ({ st with lastSeq := seq }, false)
      else
        ({ st with lastSeq := seq, fuActive := false, fuLen := 0, needIdr := true }, true)

/-- The timestamp part of the prologue: a new timestamp discards an unfinished access unit; a
gap inside one marks it bad. -/
def rtpNewTs (st : H264RtpState) (seqGap : Bool) (ts : ℕ) : H264RtpState :=
  if st.auHaveTs = false ∨ st.auTs ≠ ts then
    let st :=
      if st.auHaveTs = true ∧ 0 < st.auLen then rtpAuReset { st with needIdr := true } else st
    { st with auHaveTs := true, auTs := ts }
  else if seqGap then
    { st with auBad := true }
  else
    st

/-- What each handler does before it looks at the payload; also returns `seq_gap`. -/
def rtpEnter (st : H264RtpState) (pkt : List UInt8) : H264RtpState × Bool :=
  let gap := rtpH264SeqGap st pkt
  (rtpNewTs gap.1 gap.2 (rtpTs pkt), gap.2)

/-- The frame of the three handlers: drop a malformed packet, run the prologue, and give the
payload to `body` with `seq_gap` and the marker bit.  A packet without payload changes only what
the prologue changes, whatever its marker bit. -/
def rtpHandle {α : Type*}
    (body : α → H264RtpState → Bool → Bool → List UInt8 → α × H264RtpState × ℕ)
    (s : α) (st : H264RtpState) (pkt : List UInt8) : α × H264RtpState × ℕ :=
  if rtpWellFormed pkt = false then
    (s, st, 0)
  else
    let (st, seqGap) := rtpEnter st pkt
    match rtpPayload pkt with
    | none => (s, st, 0)
    | some payload => body s st seqGap (rtpMarker pkt) payload

/-! ## Assembling in `au` -/

/-- The start code put before each NAL unit. -/
def startCode : List UInt8 := [0, 0, 0, 1]

/-- A `memcpy` behind the first `auLen` bytes of `au`. -/
def H264RtpState.pushAu (st : H264RtpState) (p : List UInt8) : H264RtpState :=
  { st with au := st.au.take st.auLen ++ p, auLen := st.auLen + p.length }

def rtpAuAppend (st : H264RtpState) (nal : List UInt8) : H264RtpState :=
  if nal.length = 0 ∨ auSize < st.auLen + startCode.length + nal.length then
    { st with auBad := true }
  else
    (st.pushAu startCode).pushAu nal

def rtpAuAppendBytes (st : H264RtpState) (p : List UInt8) : H264RtpState :=
  if p.length = 0 then
    st
  else if auSize < st.auLen + p.length then
    { st with auBad := true }
  else
    st.pushAu p

/-- `rtp_au_flush`; `out` lists what was written to `out_fd`, one entry for each access unit. -/
def rtpAuFlush (out : List (List UInt8)) (st : H264RtpState) :
    List (List UInt8) × H264RtpState :=
  if 0 < st.auLen ∧ st.auBad = false then
    let out := out ++ [st.au.take st.auLen]
    if st.needIdr = false ∨ st.auHasIdr = true then
      let st := if st.auHasIdr then { st with needIdr := false } else st
      (out, rtpAuReset st)
    else
      (out, rtpAuReset st)
  else
    (out, rtpAuReset st)

/-! ## Assembling in the ring -/

/-- `rtp_direct_append`; the last component tells whether it returned `0`.  `bs.phy_addr` is the
start address the decoder was opened with. -/
def rtpDirectAppend (h : Decoder) (st : H264RtpState) (p : List UInt8) :
    Decoder × H264RtpState × Bool :=
  if p.length = 0 then
    (h, st, true)
  else
    let (h, buf) := vpuDecGetBitstreamBuffer h
    if buf.ret ≠ .success then
      (h, { st with auBad := true }, false)
    -- 512 bytes of the ring stay free.
    else if buf.size ≤ st.auLen + p.length + 512 then
      (h, { st with auBad := true }, false)
    else
      let base := buf.paWrPtr - h.streamBufStartAddr
      let pos := (base + st.auLen) % streamBufSize
      -- Up to the end of the ring, and the rest from its start.
      let first := min (streamBufSize - pos) p.length
      let h := h.memcpy pos (p.take first)
      let h := if first < p.length then h.memcpy 0 (p.drop first) else h
      (h.remark (.staged p), { st with auLen := st.auLen + p.length }, true)

def rtpDirectAppendNal (h : Decoder) (st : H264RtpState) (nal : List UInt8) :
    Decoder × H264RtpState × Bool :=
  match rtpDirectAppend h st startCode with
  | (h, st, false) => (h, st, false)
  | (h, st, true) => rtpDirectAppend h st nal

/-- `rtp_direct_flush`; the last component is the number of bytes committed. -/
def rtpDirectFlush (h : Decoder) (st : H264RtpState) : Decoder × H264RtpState × ℕ :=
  if 0 < st.auLen ∧ st.auBad = false then
    let (h, ret) := vpuDecUpdateBitstreamBuffer (h.remark (.flushed st.auLen)) st.auLen
    let committed := if ret = .success then st.auLen else 0
    if st.needIdr = false ∨ st.auHasIdr = true then
      let st := if st.auHasIdr then { st with needIdr := false } else st
      (h, rtpDirectReset st, committed)
    else
      (h, rtpDirectReset st, committed)
  else
    (h, rtpDirectReset st, 0)

/-! ## Rules for staged data -/

/-- The ring `h` holds, behind the write pointer, the `bytes` that `st` counts in `auLen`. -/
def Staged (bs : BitstreamMem) (h : Decoder) (st : H264RtpState) (bytes : List UInt8) : Prop :=
  ∃ queue, RingInv streamBufSize bs.phyAddr h queue bytes ∧ st.auLen = bytes.length

/-- A copy cut at the end of the ring stages all of it. -/
theorem RingInv.memcpyWrap {N start pos : ℕ} {d : Decoder} {queue staged p : List UInt8}
    (h : RingInv N start d queue staged)
    (hpos : pos = (d.streamWrPtr - start + staged.length) % N)
    (hroom : queue.length + staged.length + p.length < N) :
    ∃ k, RingInv N start
      (if min (N - pos) p.length < p.length then
        (d.memcpy pos (p.take (min (N - pos) p.length))).memcpy 0
          (p.drop (min (N - pos) p.length))
      else d.memcpy pos (p.take (min (N - pos) p.length)))
      (queue.drop k) (staged ++ p) := by
  have hN : 0 < N := by omega
  have hlt : pos < N := hpos ▸ Nat.mod_lt _ hN
  by_cases hcut : min (N - pos) p.length < p.length
  · have hfirst : min (N - pos) p.length = N - pos := by omega
    rw [if_pos hcut, hfirst]
    obtain ⟨k, hk⟩ := h.memcpy pos (p.take (N - pos)) hpos
      (Nat.le_trans (List.length_take_le _ _) (by omega)) (by simp; omega)
    -- The second copy starts where the first one reached the end of the ring.
    have hzero : 0 = ((d.memcpy pos (p.take (N - pos))).streamWrPtr - start +
        (staged ++ p.take (N - pos)).length) % N := by
      have hlen : (p.take (N - pos)).length = N - pos := by simp; omega
      rw [Decoder.memcpy_wrPtr, List.length_append, hlen, ← Nat.add_assoc, Nat.add_mod, ← hpos]
      by_cases hz : pos = 0
      · simp [hz]
      · rw [Nat.mod_eq_of_lt (show N - pos < N by omega), show pos + (N - pos) = N by omega,
          Nat.mod_self]
    obtain ⟨k', hk'⟩ := hk.memcpy 0 (p.drop (N - pos)) hzero (by simp; omega)
      (by simp; omega)
    refine ⟨k + k', ?_⟩
    rwa [List.drop_drop, List.append_assoc, List.take_append_drop] at hk'
  · have hfirst : min (N - pos) p.length = p.length := by omega
    rw [if_neg hcut, hfirst, List.take_length]
    exact h.memcpy pos p hpos (by omega) hroom

theorem Staged.auLen_eq {bs : BitstreamMem} {h : Decoder} {st : H264RtpState}
    {bytes : List UInt8} (hs : Staged bs h st bytes) : st.auLen = bytes.length := by
  obtain ⟨-, -, hlen⟩ := hs
  exact hlen

theorem Staged.setFlags {bs : BitstreamMem} {h : Decoder} {st st' : H264RtpState}
    {bytes : List UInt8} (hs : Staged bs h st bytes) (hlen : st'.auLen = st.auLen) :
    Staged bs h st' bytes := by
  obtain ⟨queue, hring, hst⟩ := hs
  exact ⟨queue, hring, hlen.trans hst⟩

theorem Staged.reset {bs : BitstreamMem} {h : Decoder} {st st' : H264RtpState}
    {bytes : List UInt8} (hs : Staged bs h st bytes) (hlen : st'.auLen = 0) :
    Staged bs h st' [] := by
  obtain ⟨queue, hring, hst⟩ := hs
  exact ⟨queue, hring.unstage, by simpa using hlen⟩

/-- `rtp_direct_append` stages all of `p`, or marks the access unit bad and stages nothing, which
it does only if the ring is short of room.  It never commits. -/
theorem rtpDirectAppend_spec {bs : BitstreamMem} {h : Decoder} {st : H264RtpState}
    {bytes : List UInt8} (hs : Staged bs h st bytes) (p : List UInt8) :
    ∃ h', Fifo.commits h'.events = Fifo.commits h.events ∧ h'.unread ≤ h.unread ∧
      ((rtpDirectAppend h st p = (h', { st with auLen := st.auLen + p.length }, true) ∧
          Staged bs h' { st with auLen := st.auLen + p.length } (bytes ++ p)) ∨
        (rtpDirectAppend h st p = (h', { st with auBad := true }, false) ∧
          Staged bs h' { st with auBad := true } bytes ∧
          streamBufSize - 1 ≤ h.unread + st.auLen + p.length + 512)) := by
  obtain ⟨queue, hring, hlen⟩ := hs
  by_cases hp : p.length = 0
  · have hnil : p = [] := List.eq_nil_of_length_eq_zero hp
    subst hnil
    exact ⟨h, rfl, Nat.le_refl _,
      .inl ⟨by simp [rtpDirectAppend], queue, by simpa using hring, by simpa⟩⟩
  obtain ⟨k, hk, hget⟩ := hring.getBitstreamBuffer
  have hstart := hk.startAddr
  have hdrop : (queue.drop k).length ≤ queue.length := by simp
  by_cases hfull : streamBufSize - 1 - (queue.drop k).length ≤ st.auLen + p.length + 512
  · refine ⟨h.tick, by simp, ?_, .inr ⟨?_, ⟨queue.drop k, hk, hlen⟩, ?_⟩⟩
    · rw [hk.unread_eq, hring.unread_eq]
      exact hdrop
    · simp only [rtpDirectAppend, hp, hget, if_false, ne_eq, not_true_eq_false, if_pos hfull]
    · rw [hring.unread_eq]
      omega
  · have hroom : (queue.drop k).length + bytes.length + p.length < streamBufSize := by omega
    obtain ⟨k', hk'⟩ := RingInv.memcpyWrap hk rfl hroom
    refine ⟨_, ?_, ?_, .inl ⟨?_, _, hk'.remark (.staged p), by simp [hlen]⟩⟩
    · split <;> simp
    · rw [Decoder.remark_unread, hk'.unread_eq, hring.unread_eq]
      simp only [List.length_drop]
      omega
    · rw [hlen] at hfull
      simp only [rtpDirectAppend, hp, hget, if_false, ne_eq, not_true_eq_false, hstart, hlen,
        if_neg hfull, Decoder.tick_wrPtr]

/-- What `rtp_direct_flush` leaves of the state. -/
def flushed (st : H264RtpState) : H264RtpState :=
  rtpAuReset { st with
    needIdr := st.needIdr && !(decide (0 < st.auLen) && !st.auBad && st.auHasIdr) }

/-- `rtp_direct_flush` commits what is staged unless the access unit is empty or bad. -/
theorem rtpDirectFlush_spec {bs : BitstreamMem} {h : Decoder} {st : H264RtpState}
    {bytes : List UInt8} (hs : Staged bs h st bytes) :
    ∃ h', rtpDirectFlush h st =
        (h', flushed st, if bytes ≠ [] ∧ st.auBad = false then bytes.length else 0) ∧
      Staged bs h' (flushed st) [] ∧
      Fifo.commits h'.events = Fifo.commits h.events ++
        (if bytes ≠ [] ∧ st.auBad = false then [bytes] else []) := by
  obtain ⟨queue, hring, hlen⟩ := hs
  have hpos : 0 < st.auLen ↔ bytes ≠ [] := by rw [hlen]; exact List.length_pos_iff
  by_cases hcommit : bytes ≠ [] ∧ st.auBad = false
  · obtain ⟨k, hk, hret, hev⟩ :=
      (hring.remark (.flushed bytes.length)).updateBitstreamBuffer hcommit.1
    refine ⟨_, ?_, ⟨_, hk, rfl⟩, by rw [hev, if_pos hcommit, Decoder.remark_events]⟩
    simp only [rtpDirectFlush, if_pos hcommit, hlen, hret, if_true]
    cases hidr : st.auHasIdr <;> cases hneed : st.needIdr <;>
      simp [flushed, rtpDirectReset, rtpAuReset, hidr, hneed, hcommit.2, hpos, hcommit.1]
  · refine ⟨h, ?_, ⟨queue, hring.unstage, rfl⟩, by rw [if_neg hcommit]; simp⟩
    have hneed : (decide (0 < st.auLen) && !st.auBad && st.auHasIdr) = false := by
      rw [← hpos] at hcommit
      cases hb : st.auBad <;> simp_all
    have hcond : ¬ (0 < st.auLen ∧ st.auBad = false) := by rwa [hpos]
    simp only [rtpDirectFlush, if_neg hcond, if_neg hcommit]
    simp [flushed, rtpDirectReset, rtpAuReset, hneed]

/-! ## The writer's account -/

/-- All the bytes that were staged, in order. -/
def stagedBytes (rs : List Remark) : List UInt8 :=
  rs.flatMap fun r =>
    match r with
    | .staged piece => piece
    | .flushed _ => []

/-- The last `n` bytes that were staged. -/
def lastStaged (rs : List Remark) (n : ℕ) : List UInt8 :=
  (stagedBytes rs).drop ((stagedBytes rs).length - n)

/-- The access units that were flushed, after the bytes `before`: each is made of the bytes staged
last. -/
def flushedUnitsFrom : List UInt8 → List Remark → List (List UInt8)
  | _, [] => []
  | before, .staged piece :: rs => flushedUnitsFrom (before ++ piece) rs
  | before, .flushed len :: rs =>
    before.drop (before.length - len) :: flushedUnitsFrom before rs

def flushedUnits (rs : List Remark) : List (List UInt8) := flushedUnitsFrom [] rs

theorem stagedBytes_concat_staged (rs : List Remark) (p : List UInt8) :
    stagedBytes (rs ++ [.staged p]) = stagedBytes rs ++ p := by
  simp [stagedBytes]

theorem flushedUnits_concat_staged (rs : List Remark) (p : List UInt8) :
    flushedUnits (rs ++ [.staged p]) = flushedUnits rs := by
  have hfrom : ∀ before, flushedUnitsFrom before (rs ++ [.staged p]) =
      flushedUnitsFrom before rs := by
    induction rs with
    | nil => exact fun before => rfl
    | cons r rs ih =>
      intro before
      cases r with
      | staged piece => exact ih (before ++ piece)
      | flushed len => exact congrArg (before.drop (before.length - len) :: ·) (ih before)
  exact hfrom []

theorem flushedUnits_concat_flushed (rs : List Remark) (n : ℕ) :
    flushedUnits (rs ++ [.flushed n]) = flushedUnits rs ++ [lastStaged rs n] := by
  have hfrom : ∀ before, flushedUnitsFrom before (rs ++ [.flushed n]) =
      flushedUnitsFrom before rs ++
        [(before ++ stagedBytes rs).drop ((before ++ stagedBytes rs).length - n)] := by
    induction rs with
    | nil =>
      intro before
      simp [flushedUnitsFrom, stagedBytes]
    | cons r rs ih =>
      intro before
      cases r with
      | staged piece =>
        have := ih (before ++ piece)
        simpa [flushedUnitsFrom, stagedBytes] using this
      | flushed len =>
        have := ih before
        simpa [flushedUnitsFrom, stagedBytes] using this
  simpa [flushedUnits, lastStaged] using hfrom []

/-- Staging a piece extends what was staged last. -/
theorem lastStaged_concat {rs : List Remark} {n : ℕ} (hn : n ≤ (stagedBytes rs).length)
    (p : List UInt8) :
    lastStaged (rs ++ [.staged p]) (n + p.length) = lastStaged rs n ++ p := by
  unfold lastStaged
  rw [stagedBytes_concat_staged, List.length_append,
    show (stagedBytes rs).length + p.length - (n + p.length) = (stagedBytes rs).length - n by omega,
    List.drop_append_of_le_length (by omega)]

theorem rtpDirectAppend_remarks (h : Decoder) (st : H264RtpState) (p : List UInt8) :
    (rtpDirectAppend h st p).1.remarks =
      h.remarks ++ if (rtpDirectAppend h st p).2.2 = true ∧ p ≠ [] then [.staged p] else [] := by
  unfold rtpDirectAppend
  split
  · rename_i hp
    simp [List.eq_nil_of_length_eq_zero hp]
  · rename_i hp
    have hne : p ≠ [] := fun hnil => hp (by simp [hnil])
    simp only
    split
    · simp
    split
    · simp
    · split <;> simp [Decoder.remark, hne]

theorem rtpDirectFlush_remarks (h : Decoder) (st : H264RtpState) :
    (rtpDirectFlush h st).1.remarks =
      h.remarks ++ if 0 < st.auLen ∧ st.auBad = false then [.flushed st.auLen] else [] := by
  unfold rtpDirectFlush
  split
  · simp only
    split <;> simp [Decoder.remark]
  · simp

end Stream
end ToonVpu
