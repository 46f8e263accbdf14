import ToonVpu.Stream.Rtp

/-!
# Feed — the writers of the bitstream ring (`apps/vpu_stream.c`)

A TCP session fills the ring with `feed`, which receives straight into it, and with
`bs_ring_write`, which copies a drained chunk; an RTP session stages access units with
`rtp_direct_append` and commits them with `rtp_direct_flush`.  This module models the TCP writers
and shows that the ring, whichever kind of session writes it, is a FIFO byte queue.
-/

namespace ToonVpu
namespace Stream

open Foundation
open Foundation.Circular
open Lib

/-! ## Receiving into the ring -/

/-- `FEED_CHUNK_SIZE`. -/
def feedChunkSize : ℕ := 32768

/-- `DRAIN_BUF_SIZE`. -/
def drainBufSize : ℕ := 262144

/-- What `recv` finds: pending bytes (none of them: the peer closed, or sent an empty datagram),
or an error such as `EAGAIN`.  A call never returns more bytes than it asked for. -/
inductive Recv
  | bytes (data : List UInt8)
  | fail
  deriving DecidableEq, Repr

/-- `feed`; `pollReady` is the outcome of the `poll` a blocking call makes first.  Returns the
number of bytes received, `0` when the peer closed, `-2` on a poll timeout, else `-1`. -/
def feed (h : Decoder) (block pollReady : Bool) (recv : Recv) : Decoder × ℤ :=
  let (h, buf) := vpuDecGetBitstreamBuffer h
  if buf.ret ≠ .success then
    (h, -1)
  else if buf.size < 512 then
    (h, -1)
  else
    let off := buf.paWrPtr - h.streamBufStartAddr
    let chunk := min (min (streamBufSize - off) buf.size) feedChunkSize
    -- A blocking call waits 300 ms for data and no longer.
    if block = true ∧ pollReady = false then
      (h, -2)
    else
      match recv with
      | .fail => (h, -1)
      | .bytes data =>
        let got := data.take chunk
        if got.length = 0 then
          -- The peer has closed.
          (h, 0)
        else
          let h := h.memcpy off got
          let (h, _) := vpuDecUpdateBitstreamBuffer h got.length
          (h, got.length)

def bitstreamUsed (h : Decoder) : Decoder × ℤ :=
  let (h, buf) := vpuDecGetBitstreamBuffer h
  if buf.ret ≠ .success then
    (h, streamBufSize)
  else
    (h, (streamBufSize : ℤ) - buf.size - 1)

/-- The loop of `feed_until_watermark`: one `feed` for each entry of `recvs`, which holds
`max_reads` of them. -/
def feedUntilWatermarkLoop (targetUsed : ℤ) (total : ℤ) : List Recv → Decoder → Decoder × ℤ
  | [], h => (h, if 0 < total then total else -1)
  | r :: recvs, h =>
    let (h, used) := bitstreamUsed h
    if targetUsed ≤ used then
      (h, if 0 < total then total else -1)
    else
      let (h, n) := feed h false true r
      if 0 < n then
        feedUntilWatermarkLoop targetUsed (total + n) recvs h
      else if n = 0 then
        (h, if 0 < total then total else 0)
      else
        (h, if 0 < total then total else -1)

def feedUntilWatermark (h : Decoder) (targetUsed : ℤ) (recvs : List Recv) : Decoder × ℤ :=
  feedUntilWatermarkLoop targetUsed 0 recvs h

/-! ## Copying a drained chunk -/

/-- The copy loop of `bs_ring_write`, on the bytes not yet written.  Each round copies at least
one byte, so `fuel` is their number. -/
def bsRingWriteLoop : ℕ → Decoder → ℕ → List UInt8 → Decoder
  | 0, h, _, _ => h
  | fuel + 1, h, off, rest =>
    if rest.length = 0 then
      h
    else
      let chunk := min (streamBufSize - off) rest.length
      bsRingWriteLoop fuel (h.memcpy off (rest.take chunk)) 0 (rest.drop chunk)

def bsRingWrite (h : Decoder) (p : List UInt8) : Decoder × ℤ :=
  if p.length = 0 then
    (h, 0)
  else
    let (h, buf) := vpuDecGetBitstreamBuffer h
    if buf.ret ≠ .success then
      (h, -1)
    else
      -- A chunk larger than the room is truncated.
      let p := p.take buf.size
      let off := buf.paWrPtr - h.streamBufStartAddr
      let h := bsRingWriteLoop p.length h off p
      if 0 < p.length then
        let (h, _) := vpuDecUpdateBitstreamBuffer h p.length
        (h, p.length)
      else
        (h, 0)

/-! ## One rule for each writer -/

section Writers

variable {N start : ℕ} {h : Decoder} {queue staged : List UInt8}

/-- The bytes a call of `feed` took from the socket. -/
def received (recv : Recv) (ret : ℤ) : List (List UInt8) :=
  match recv with
  | .bytes data => if 0 < ret then [data.take ret.toNat] else []
  | .fail => []

/-- `feed` commits exactly the bytes it received. -/
theorem feed_spec (hring : RingInv streamBufSize start h queue []) (block pollReady : Bool)
    (recv : Recv) :
    ∃ queue', RingInv streamBufSize start (feed h block pollReady recv).1 queue' [] ∧
      Fifo.commits (feed h block pollReady recv).1.events =
        Fifo.commits h.events ++ received recv (feed h block pollReady recv).2 := by
  obtain ⟨k, hk, hget⟩ := hring.getBitstreamBuffer
  have hcommits : Fifo.commits h.tick.events = Fifo.commits h.events := Decoder.commits_tick _
  simp only [feed, hget, ne_eq, not_true_eq_false, if_false, hk.startAddr]
  -- No room, no data in time, an error, the end of the stream, or a chunk that is written.
  by_cases hroom : streamBufSize - 1 - (queue.drop k).length < 512
  · refine ⟨queue.drop k, ?_⟩
    rw [if_pos hroom]
    cases recv <;> exact ⟨hk, by simp [received, hcommits]⟩
  rw [if_neg hroom]
  by_cases htimeout : block = true ∧ pollReady = false
  · refine ⟨queue.drop k, ?_⟩
    rw [if_pos htimeout]
    cases recv <;> exact ⟨hk, by simp [received, hcommits]⟩
  rw [if_neg htimeout]
  cases recv with
  | fail => exact ⟨queue.drop k, hk, by simp [received, hcommits]⟩
  | bytes data =>
    generalize hchunk : min (min (streamBufSize - (h.streamWrPtr - start))
      (streamBufSize - 1 - (queue.drop k).length)) feedChunkSize = chunk
    have hgot : (data.take chunk).length ≤ chunk := List.length_take_le _ _
    by_cases hzero : (data.take chunk).length = 0
    · refine ⟨queue.drop k, ?_⟩
      simp only [if_pos hzero]
      exact ⟨hk, by simp [received, hcommits]⟩
    simp only [if_neg hzero]
    have hmem := hk.wrPtr_mem
    rw [Decoder.tick_wrPtr] at hmem
    obtain ⟨k₁, hk₁⟩ := hk.memcpy (h.streamWrPtr - start) (data.take chunk)
      (by simp; rw [Nat.mod_eq_of_lt (by omega)]) (by omega) (by rw [List.length_nil]; omega)
    obtain ⟨k₂, hk₂, -, hev⟩ := hk₁.updateBitstreamBuffer
      (by simpa [List.length_eq_zero_iff] using hzero)
    simp only [List.nil_append] at hk₂ hev
    refine ⟨_, hk₂, ?_⟩
    rw [hev]
    have hpos : 0 < (data.take chunk).length := Nat.pos_of_ne_zero hzero
    have htake : data.take (data.take chunk).length = data.take chunk := by
      rw [List.length_take, List.take_eq_take_iff]; omega
    simp only [received, Int.natCast_pos, if_pos hpos, Int.toNat_natCast, htake,
      Decoder.commits_memcpy, hcommits]

/-- A `feed` that receives nothing leaves what is staged alone. -/
theorem feed_idle (hring : RingInv streamBufSize start h queue staged) {block pollReady : Bool}
    {recv : Recv} (hidle : (feed h block pollReady recv).2 ≤ 0) :
    ∃ queue', RingInv streamBufSize start (feed h block pollReady recv).1 queue' staged ∧
      Fifo.commits (feed h block pollReady recv).1.events = Fifo.commits h.events := by
  obtain ⟨k, hk, hget⟩ := hring.getBitstreamBuffer
  have hsame : (feed h block pollReady recv).1 = h.tick := by
    revert hidle
    simp only [feed, hget, ne_eq, not_true_eq_false, if_false]
    split
    · simp
    split
    · simp
    cases recv with
    | fail => simp
    | bytes data =>
      simp only
      split
      · simp
      · intro hidle
        exact absurd hidle (by simp; omega)
  rw [hsame]
  exact ⟨_, hk, Decoder.commits_tick _⟩

theorem feed_remarks (h : Decoder) (block pollReady : Bool) (recv : Recv) :
    (feed h block pollReady recv).1.remarks = h.remarks := by
  unfold feed
  simp only
  split_ifs
  · simp
  · simp
  · simp
  · cases recv with
    | fail => simp
    | bytes data =>
      simp only
      split <;> simp

theorem feed_grows (h : Decoder) (block pollReady : Bool) (recv : Recv) :
    Fifo.Grows h.events (feed h block pollReady recv).1.events := by
  have hget : Fifo.Grows h.events (vpuDecGetBitstreamBuffer h).1.events := by
    unfold vpuDecGetBitstreamBuffer
    split
    · exact .refl _
    · exact h.tick_grows
  unfold feed
  simp only
  split_ifs
  · exact hget
  · exact hget
  · exact hget
  · cases recv with
    | fail => exact hget
    | bytes data =>
      simp only
      split
      · exact hget
      · exact hget.trans ((Decoder.tick_grows _).trans (Decoder.updateBitstreamBuffer_grows _ _))

/-- A blocking `feed` finds room in the ring and bytes on the socket. -/
def FeedReceives (h : Decoder) (pollReady : Bool) (recv : Recv) : Prop :=
  512 ≤ (vpuDecGetBitstreamBuffer h).2.size ∧ pollReady = true ∧
    ∃ data, data ≠ [] ∧ recv = .bytes data

theorem feed_pos_iff (hring : RingInv streamBufSize start h queue staged) {pollReady : Bool}
    {recv : Recv} :
    0 < (feed h true pollReady recv).2 ↔ FeedReceives h pollReady recv := by
  obtain ⟨k, hk, hget⟩ := hring.getBitstreamBuffer
  have hmem := hk.wrPtr_mem
  rw [Decoder.tick_wrPtr] at hmem
  simp only [feed, FeedReceives, hget, ne_eq, not_true_eq_false, if_false, hk.startAddr, true_and]
  generalize hfree : streamBufSize - 1 - (queue.drop k).length = free at *
  by_cases hroom : free < 512
  · simp [hroom, Nat.not_le.2 hroom]
  rw [if_neg hroom]
  cases pollReady with
  | false => simp
  | true =>
    cases recv with
    | fail => simp
    | bytes data =>
      -- the chunk asked for is never empty, so only an empty datagram gives nothing
      have hchunk : 0 < min (min (streamBufSize - (h.streamWrPtr - start)) free)
          feedChunkSize := by
        unfold feedChunkSize
        omega
      cases data with
      | nil => simp
      | cons x xs =>
        have hgot : 0 < ((x :: xs).take
            (min (min (streamBufSize - (h.streamWrPtr - start)) free) feedChunkSize)).length := by
          rw [List.length_take, List.length_cons]
          omega
        simp only [Bool.true_eq_false, if_false, if_neg (Nat.ne_of_gt hgot)]
        simpa [Nat.not_lt.1 hroom] using hgot

/-- The copy loop is at most two copies: up to the end of the ring, and on from its start. -/
theorem bsRingWriteLoop_eq {off fuel : ℕ} {rest : List UInt8} (hoff : off < streamBufSize)
    (hlen : rest.length ≤ streamBufSize) (hpos : 0 < rest.length) (hfuel : rest.length ≤ fuel) :
    bsRingWriteLoop fuel h off rest =
      if min (streamBufSize - off) rest.length < rest.length then
        (h.memcpy off (rest.take (min (streamBufSize - off) rest.length))).memcpy 0
          (rest.drop (min (streamBufSize - off) rest.length))
      else h.memcpy off (rest.take (min (streamBufSize - off) rest.length)) := by
  have hdone : ∀ n d o, bsRingWriteLoop n d o [] = d := by
    intro n d o
    cases n <;> simp [bsRingWriteLoop]
  obtain ⟨n, rfl⟩ : ∃ n, fuel = n + 1 := ⟨fuel - 1, by omega⟩
  simp only [bsRingWriteLoop, if_neg (Nat.ne_of_gt hpos)]
  generalize hfirst : min (streamBufSize - off) rest.length = first
  by_cases hcut : first < rest.length
  · obtain ⟨m, rfl⟩ : ∃ m, n = m + 1 := ⟨n - 1, by omega⟩
    have hchunk : min (streamBufSize - 0) (rest.drop first).length = (rest.drop first).length := by
      simp; omega
    have hne : (rest.drop first).length ≠ 0 := by simp; omega
    simp only [bsRingWriteLoop, if_neg hne, hchunk, List.take_length, List.drop_length, hdone,
      if_pos hcut]
  · rw [if_neg hcut, List.drop_of_length_le (by omega), hdone]

/-- `bs_ring_write` commits the chunk it is given, cut to the room there is, behind what the
hardware has not read. -/
theorem bsRingWrite_spec (hring : RingInv streamBufSize start h queue []) (p : List UInt8) :
    ∃ k, RingInv streamBufSize start (bsRingWrite h p).1
        (queue.drop k ++ p.take (vpuDecGetBitstreamBuffer h).2.size) [] ∧
      Fifo.commits (bsRingWrite h p).1.events = Fifo.commits h.events ++
        (if p.take (vpuDecGetBitstreamBuffer h).2.size = [] then []
          else [p.take (vpuDecGetBitstreamBuffer h).2.size]) := by
  by_cases hp : p.length = 0
  · have hnil : p = [] := List.eq_nil_of_length_eq_zero hp
    exact ⟨0, by simpa [bsRingWrite, hp, hnil] using hring, by simp [bsRingWrite, hnil]⟩
  obtain ⟨k, hk, hget⟩ := hring.getBitstreamBuffer
  have hroom := hk.holds.room
  have hmem := hk.wrPtr_mem
  simp only [bsRingWrite, hp, if_false, hget, ne_eq, not_true_eq_false, hk.startAddr]
  generalize hq : p.take (streamBufSize - 1 - (queue.drop k).length) = q
  have hle : q.length ≤ streamBufSize - 1 - (queue.drop k).length := by
    rw [← hq]
    exact List.length_take_le _ _
  by_cases hzero : q = []
  · subst hzero
    refine ⟨k, ?_⟩
    simpa [bsRingWriteLoop] using hk
  have hpos : 0 < q.length := List.length_pos_iff.2 hzero
  have hoff : h.streamWrPtr - start = (h.tick.streamWrPtr - start + ([] : List UInt8).length) %
      streamBufSize := by
    rw [Decoder.tick_wrPtr] at hmem ⊢
    rw [List.length_nil, Nat.add_zero, Nat.mod_eq_of_lt (by omega)]
  have hlt : h.streamWrPtr - start < streamBufSize := by
    rw [Decoder.tick_wrPtr] at hmem
    omega
  obtain ⟨k₁, hk₁⟩ := RingInv.memcpyWrap hk (p := q) hoff
    (by rw [List.length_nil]; omega)
  rw [← bsRingWriteLoop_eq hlt (by omega) hpos (Nat.le_refl _), List.nil_append] at hk₁
  obtain ⟨k₂, hk₂, -, hev⟩ := hk₁.updateBitstreamBuffer hzero
  simp only [List.drop_drop] at hk₂
  simp only [if_pos hpos, if_neg hzero]
  refine ⟨_, hk₂, ?_⟩
  rw [hev, bsRingWriteLoop_eq hlt (by omega) hpos (Nat.le_refl _)]
  congr 1
  split <;> simp

end Writers

/-! ## The ring as a queue -/

/-- Who writes the ring of a session. -/
inductive Writer
  | tcp
  | direct
  deriving DecidableEq, Repr

/-- A session's ring and RTP state, with what the writers handed over so far: `staged` since the
last commit, `handed` with the commits, one entry for each. -/
structure RingSession where
  h : Decoder
  st : H264RtpState
  staged : List UInt8
  handed : List (List UInt8)

/-- The sessions reachable from `vpu_DecOpen`.  A TCP writer calls `feed` and `bs_ring_write`, an
RTP one appends and flushes, changing the flags of its state as it likes; the hardware reads, the
fill level is looked at, and the ring is flushed, at any time. -/
inductive RingReach (bs : BitstreamMem) : Writer → RingSession → Prop
  | decOpen (w : Writer) (mem : ℕ → UInt8) (sched : List ℕ) :
      RingReach bs w ⟨vpuDecOpenRing bs.phyAddr streamBufSize mem sched, {}, [], []⟩
  | hwRead {w : Writer} {s : RingSession} (k : ℕ) (hs : RingReach bs w s) :
      RingReach bs w { s with h := s.h.hwRead k }
  | bitstreamUsed {w : Writer} {s : RingSession} (hs : RingReach bs w s) :
      RingReach bs w { s with h := (bitstreamUsed s.h).1 }
  | bitBufferFlush {w : Writer} {s : RingSession} (hs : RingReach bs w s) :
      -- The write pointer moves, so an unfinished access unit now covers other bytes.
      RingReach bs w
        { s with
          h := vpuDecBitBufferFlushRing s.h
          staged := window streamBufSize s.h.mem 0 s.st.auLen }
  | feed {s : RingSession} (block pollReady : Bool) (recv : Recv) (hs : RingReach bs .tcp s) :
      RingReach bs .tcp
        { s with
          h := (feed s.h block pollReady recv).1
          handed := s.handed ++ received recv (feed s.h block pollReady recv).2 }
  | bsRingWrite {s : RingSession} (p : List UInt8) (hs : RingReach bs .tcp s)
      (hfit : p.length ≤ (vpuDecGetBitstreamBuffer s.h).2.size) :
      RingReach bs .tcp
        { s with
          h := (bsRingWrite s.h p).1
          handed := s.handed ++ (if p = [] then [] else [p]) }
  | setFlags {s : RingSession} (st : H264RtpState) (hs : RingReach bs .direct s)
      (hlen : st.auLen = s.st.auLen) :
      RingReach bs .direct { s with st := st }
  | directReset {s : RingSession} (hs : RingReach bs .direct s) :
      RingReach bs .direct { s with st := rtpDirectReset s.st, staged := [] }
  | directAppend {s : RingSession} (p : List UInt8) (hs : RingReach bs .direct s) :
      RingReach bs .direct
        { s with
          h := (rtpDirectAppend s.h s.st p).1
          st := (rtpDirectAppend s.h s.st p).2.1
          staged := if (rtpDirectAppend s.h s.st p).2.2 then s.staged ++ p else s.staged }
  | directFlush {s : RingSession} (hs : RingReach bs .direct s) :
      RingReach bs .direct
        { s with
          h := (rtpDirectFlush s.h s.st).1
          st := (rtpDirectFlush s.h s.st).2.1
          staged := []
          handed := s.handed ++
            (if s.staged ≠ [] ∧ s.st.auBad = false then [s.staged] else []) }

/-- The ring holds what was handed over; a TCP writer stages nothing. -/
structure RingSessionInv (bs : BitstreamMem) (w : Writer) (s : RingSession) : Prop where
  holds : Staged bs s.h s.st s.staged
  handed : Fifo.commits s.h.events = s.handed
  unstaged : w = .tcp → s.staged = []

section Refinement

variable {bs : BitstreamMem} {w : Writer} {s : RingSession}

theorem bitstreamUsed_spec {start : ℕ} {h : Decoder} {queue staged : List UInt8}
    (hring : RingInv streamBufSize start h queue staged) :
    ∃ k, RingInv streamBufSize start h.tick (queue.drop k) staged ∧
      bitstreamUsed h = (h.tick, ((queue.drop k).length : ℤ)) ∧
      (vpuDecGetBitstreamBuffer h).2.size = streamBufSize - 1 - (queue.drop k).length := by
  obtain ⟨k, hk, hget⟩ := hring.getBitstreamBuffer
  have hroom := hk.holds.room
  refine ⟨k, hk, ?_, by rw [hget]⟩
  simp only [bitstreamUsed, hget, ne_eq, not_true_eq_false, if_false, Prod.mk.injEq, true_and]
  omega

/-- Flushing the ring under an unfinished access unit leaves a ring that covers other bytes. -/
theorem Staged.bitBufferFlush {h : Decoder} {st : H264RtpState} {bytes : List UInt8}
    (hs : Staged bs h st bytes) :
    Staged bs (vpuDecBitBufferFlushRing h) st (window streamBufSize h.mem 0 st.auLen) := by
  obtain ⟨queue, hring, hlen⟩ := hs
  have hroom := hring.holds.room
  have hflush := hring.bitBufferFlush
  refine ⟨[], { hflush with holds := ⟨hflush.holds.rd_lt, ?_, ?_⟩ }, by simp⟩
  · simp [hlen]
    omega
  · have hrd : (vpuDecBitBufferFlushRing h).rdPtr - bs.phyAddr = 0 := by
      simp [vpuDecBitBufferFlushRing, hring.startAddr]
    have hmem : (vpuDecBitBufferFlushRing h).mem = h.mem := by simp [vpuDecBitBufferFlushRing]
    simp [hrd, hmem]

theorem RingReach.inv (hs : RingReach bs w s) : RingSessionInv bs w s := by
  -- The direct store has bytes staged between its operations, and the others have none.
  induction hs with
  | decOpen w mem sched =>
    exact ⟨⟨[], RingInv.decOpen mem sched (by decide) bs.below, rfl⟩, rfl, fun _ => rfl⟩
  | hwRead k _ ih =>
    obtain ⟨queue, hring, hlen⟩ := ih.holds
    exact ⟨⟨_, hring.hwRead k, hlen⟩, by simpa using ih.handed, ih.unstaged⟩
  | bitstreamUsed _ ih =>
    obtain ⟨queue, hring, hlen⟩ := ih.holds
    obtain ⟨k, hk, hused, -⟩ := bitstreamUsed_spec hring
    refine ⟨⟨_, by rw [hused]; exact hk, hlen⟩, ?_, ih.unstaged⟩
    rw [hused]
    simpa using ih.handed
  | @bitBufferFlush w s _ ih =>
    refine ⟨ih.holds.bitBufferFlush, by simpa [vpuDecBitBufferFlushRing] using ih.handed, ?_⟩
    intro hw
    obtain ⟨-, -, hlen⟩ := ih.holds
    rw [ih.unstaged hw] at hlen
    simp [hlen]
  | feed block pollReady recv _ ih =>
    obtain ⟨queue, hring, hlen⟩ := ih.holds
    rw [ih.unstaged rfl] at hring
    obtain ⟨queue', hring', hcommits⟩ := feed_spec hring block pollReady recv
    refine ⟨⟨queue', ?_, hlen⟩, by rw [hcommits, ih.handed], ih.unstaged⟩
    rw [ih.unstaged rfl]
    exact hring'
  | @bsRingWrite s p _ hfit ih =>
    obtain ⟨queue, hring, hlen⟩ := ih.holds
    rw [ih.unstaged rfl] at hring
    obtain ⟨_, hring', hcommits⟩ := bsRingWrite_spec hring p
    rw [List.take_of_length_le hfit] at hcommits
    rw [← ih.unstaged rfl] at hring'
    exact ⟨⟨_, hring', hlen⟩, by rw [hcommits, ih.handed], ih.unstaged⟩
  | setFlags st _ hlen ih => exact ⟨ih.holds.setFlags hlen, ih.handed, ih.unstaged⟩
  | directReset _ ih => exact ⟨ih.holds.reset rfl, ih.handed, fun _ => rfl⟩
  | directAppend p _ ih =>
    obtain ⟨h', hcommits, -, ⟨heq, hst⟩ | ⟨heq, hst, -⟩⟩ := rtpDirectAppend_spec ih.holds p
    · exact ⟨by simpa [heq] using hst, by simpa [heq, hcommits] using ih.handed, by simp⟩
    · exact ⟨by simpa [heq] using hst, by simpa [heq, hcommits] using ih.handed, by simp⟩
  | directFlush _ ih =>
    obtain ⟨h', heq, hst, hcommits⟩ := rtpDirectFlush_spec ih.holds
    exact ⟨by simpa [heq] using hst, by simp [heq, hcommits, ih.handed], fun _ => rfl⟩

/-- The bitstream ring is a FIFO byte queue: what happened to it is a run of the queue that ends
with the unread bytes, its commits are what the writers handed over, none was refused, the write
pointer is inside the buffer, and `bitstream_used` counts the unread bytes. -/
theorem ring_refines_fifo (hs : RingReach bs w s) :
    Fifo.run s.h.events = some s.h.unreadBytes ∧
      Fifo.commits s.h.events = s.handed ∧
      Fifo.Accepted s.h.events ∧
      (bs.phyAddr ≤ s.h.streamWrPtr ∧ s.h.streamWrPtr < bs.phyAddr + streamBufSize) ∧
      (bitstreamUsed s.h).2 = ((bitstreamUsed s.h).1.unreadBytes.length : ℤ) ∧
      (bitstreamUsed s.h).2 + ((vpuDecGetBitstreamBuffer s.h).2.size : ℤ) =
        (streamBufSize : ℤ) - 1 := by
  have hinv := hs.inv
  obtain ⟨queue, hring, -⟩ := hinv.holds
  obtain ⟨k, hk, hused, hsize⟩ := bitstreamUsed_spec hring
  have hroom := hk.holds.room
  refine ⟨by rw [hring.unreadBytes_eq, hring.fifo], hinv.handed, hring.accepted, hring.wrPtr_mem,
    ?_, ?_⟩
  · rw [hused, hk.unreadBytes_eq]
  · rw [hused, hsize]
    simp only
    omega

/-- Three bytes received and two of them read leave one. -/
theorem ring_refines_fifo_feed :
    ∃ s, RingReach ⟨4096, by decide⟩ .tcp s ∧ s.handed = [[1, 2, 3]] ∧
      Fifo.run s.h.events = some s.h.unreadBytes ∧ s.h.unreadBytes = [3] := by
  have hopen : RingReach ⟨4096, by decide⟩ .tcp _ := RingReach.decOpen .tcp (fun _ => 0) []
  have hs := RingReach.hwRead 2 (RingReach.feed false true (.bytes [1, 2, 3]) hopen)
  refine ⟨_, hs, ?_, (ring_refines_fifo hs).1, ?_⟩
  · decide +kernel
  · decide +kernel

end Refinement

end Stream
end ToonVpu
