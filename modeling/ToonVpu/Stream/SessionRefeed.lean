import ToonVpu.Foundation.Runs
import ToonVpu.Stream.SessionRing

/-!
# SessionRefeed — a drained window and the room it finds

`feed_skip_to_latest` drains up to 256 KiB from the socket and hands them to `bs_ring_write`, which
cuts what does not fit.  Where the window has an I-VOP the ring is flushed first and everything
fits.  Where it has none, nothing is taken out: the drain is started again in each turn while the
ring is over its threshold, and only the hardware makes room.
-/

namespace ToonVpu
namespace Stream

open Foundation
open Foundation.Runs
open Lib

/-! ## How full the ring will be -/

/-- The unread bytes that are left after so many looks at the ring. -/
def fillAfter (h : Decoder) (looks : ℕ) : ℕ := h.unread - (h.sched.take looks).sum

/-- The ring of an open decoder whose writer stages nothing. -/
def RingHeld (bs : BitstreamMem) (h : Decoder) : Prop :=
  ∃ queue, RingInv streamBufSize bs.phyAddr h queue []

section Fill

variable {bs : BitstreamMem} {h : Decoder}

theorem fillAfter_zero (h : Decoder) : fillAfter h 0 = h.unread := by simp [fillAfter]

theorem RingHeld.tick (hh : RingHeld bs h) : RingHeld bs h.tick := by
  obtain ⟨queue, hring⟩ := hh
  obtain ⟨k, hk⟩ := hring.tick
  exact ⟨_, hk⟩

theorem RingHeld.fillAfter_tick (hh : RingHeld bs h) (looks : ℕ) :
    fillAfter h.tick looks = fillAfter h (looks + 1) := by
  obtain ⟨queue, hring⟩ := hh
  unfold fillAfter Decoder.tick
  cases hsched : h.sched with
  | nil => simp [hsched]
  | cons k ks =>
    have hring' : RingInv streamBufSize bs.phyAddr { h with sched := ks } queue [] :=
      { hring with }
    have hread := hring'.hwRead k
    simp only [List.take_succ_cons, List.sum_cons]
    rw [hread.unread_eq, hring.unread_eq, List.length_drop]
    show queue.length - min k queue.length - (ks.take looks).sum = _
    omega

theorem RingHeld.room (hh : RingHeld bs h) :
    (vpuDecGetBitstreamBuffer h).2.ret = .success ∧
      (vpuDecGetBitstreamBuffer h).2.size = streamBufSize - 1 - fillAfter h 1 := by
  obtain ⟨queue, hring⟩ := hh
  obtain ⟨k, hk, hget⟩ := hring.getBitstreamBuffer
  have hfill := RingHeld.fillAfter_tick ⟨queue, hring⟩ 0
  rw [fillAfter_zero, hk.unread_eq] at hfill
  rw [hget]
  exact ⟨rfl, by rw [hfill]⟩

theorem RingHeld.bitstreamUsed (hh : RingHeld bs h) :
    bitstreamUsed h = (h.tick, (fillAfter h 1 : ℤ)) := by
  obtain ⟨queue, hring⟩ := hh
  obtain ⟨k, hk, hused, -⟩ := bitstreamUsed_spec hring
  have hfill := RingHeld.fillAfter_tick ⟨queue, hring⟩ 0
  rw [fillAfter_zero, hk.unread_eq] at hfill
  rw [hused, hfill]

theorem RingHeld.feed (hh : RingHeld bs h) (block pollReady : Bool) (recv : Recv) :
    RingHeld bs (feed h block pollReady recv).1 := by
  obtain ⟨queue, hring⟩ := hh
  obtain ⟨queue', hring', -⟩ := feed_spec hring block pollReady recv
  exact ⟨queue', hring'⟩

theorem RingHeld.bsRingWrite (hh : RingHeld bs h) (p : List UInt8) :
    RingHeld bs (bsRingWrite h p).1 := by
  obtain ⟨queue, hring⟩ := hh
  obtain ⟨_, hring', -⟩ := bsRingWrite_spec hring p
  exact ⟨_, hring'⟩

/-- A flush leaves the whole ring free. -/
theorem RingHeld.bitBufferFlush (hh : RingHeld bs h) :
    RingHeld bs (vpuDecBitBufferFlushRing h) ∧
      ∀ looks, fillAfter (vpuDecBitBufferFlushRing h) looks = 0 := by
  obtain ⟨queue, hring⟩ := hh
  refine ⟨⟨[], hring.bitBufferFlush⟩, fun looks => ?_⟩
  unfold fillAfter
  rw [hring.bitBufferFlush.unread_eq, List.length_nil, Nat.zero_sub]

theorem RingHeld.feedUntilWatermark (hh : RingHeld bs h) (target : ℤ) (recvs : List Recv) :
    RingHeld bs (feedUntilWatermark h target recvs).1 := by
  have hloop : ∀ (total : ℤ) (h : Decoder), RingHeld bs h →
      RingHeld bs (feedUntilWatermarkLoop target total recvs h).1 := by
    induction recvs with
    | nil => exact fun _ _ hh => hh
    | cons r recvs ih =>
      intro total h hh
      have hfed := hh.tick.feed false true r
      unfold feedUntilWatermarkLoop
      rw [hh.bitstreamUsed]
      simp only
      split
      · exact hh.tick
      split
      · exact ih _ _ hfed
      split
      · exact hfed
      · exact hfed
  exact hloop 0 h hh

end Fill

/-! ## The call of `bs_ring_write` -/

/-- The call `feed_skip_to_latest` makes, if it makes one: the ring it is made on and the bytes. -/
def skipRefeed (codec : CodStd) (v : Vpu) (handle : DecHandle) (h : Decoder) (b : Backlog) :
    Option (Decoder × List UInt8) :=
  if codec = .avc then
    none
  else
    match b.pending with
    | none => none
    | some pending =>
      let (h, used) := bitstreamUsed h
      if pending < 32768 ∧ used < 262144 then
        none
      else
        let tmp := drainLoop b.drain []
        if tmp.length = 0 then
          none
        else
          match findResyncStart codec tmp with
          | none => some (h, tmp)
          | some startAt =>
            let (_, ret) := vpuDecBitBufferFlush v handle
            let h := if ret = .success then vpuDecBitBufferFlushRing h else h
            some (h, tmp.drop startAt)

theorem feedSkipToLatest_writes {codec : CodStd} {v : Vpu} {handle : DecHandle} {h : Decoder}
    {b : Backlog} :
    match skipRefeed codec v handle h b with
    | some (h', p) => (feedSkipToLatest codec v handle h b).2 = (bsRingWrite h' p).1
    | none => (feedSkipToLatest codec v handle h b).2 = h ∨
        (feedSkipToLatest codec v handle h b).2 = (bitstreamUsed h).1 := by
  unfold skipRefeed feedSkipToLatest
  by_cases havc : codec = .avc
  · simp only [if_pos havc, true_or]
  simp only [if_neg havc]
  cases b.pending with
  | none => exact Or.inl rfl
  | some pending =>
    generalize bitstreamUsed h = looked
    obtain ⟨h₁, used⟩ := looked
    simp only
    by_cases hfew : pending < 32768 ∧ used < 262144
    · simp only [if_pos hfew, or_true]
    simp only [if_neg hfew]
    by_cases hnone : (drainLoop b.drain []).length = 0
    · simp only [if_pos hnone, or_true]
    simp only [if_neg hnone]
    cases findResyncStart codec (drainLoop b.drain []) with
    | none => rfl
    | some startAt => rfl

/-- The call of a turn, which is made after one look at the ring. -/
def turnRefeed (c : Config) (s : Session) (t : Turn) : Option (Decoder × List UInt8) :=
  if c.rtp then none else skipRefeed c.codec s.vpu s.h (bitstreamUsed s.ring).1 t.backlog

/-- The turn has changed nothing else by then that the call depends on. -/
theorem turnRefeed_eq (c : Config) (s : Session) (t : Turn) (hrtp : c.rtp = false) :
    turnRefeed c s t = skipRefeed c.codec (coolDown ((usedNow s).1.deliver (t.signals 0))).vpu
      (coolDown ((usedNow s).1.deliver (t.signals 0))).h
      (coolDown ((usedNow s).1.deliver (t.signals 0))).ring t.backlog := by
  have hstill := (still_deliver (usedNow s).1 (t.signals 0)).trans (still_coolDown _)
  unfold turnRefeed
  rw [hstill.vpu, hstill.h, hstill.ring, hrtp]
  rfl

section Refeed

variable {c : Config} {bs : BitstreamMem} {s : Session}

end Refeed

/-! ## A turn keeps the ring -/

section Turns

variable {c : Config} {bs : BitstreamMem} {s s' : Session}

end Turns

/-! ## Runs -/

/-- Nothing was read from the ring yet, and `n` bytes were committed. -/
structure Flooded (h : Decoder) (n : ℕ) : Prop where
  inUse : h.inUse = true
  streaming : h.filePlayEnable = false
  startAddr : h.streamBufStartAddr = 4096
  endAddr : h.streamBufEndAddr = 4096 + streamBufSize
  rdPtr : h.rdPtr = 4096
  wrPtr : h.streamWrPtr = 4096 + n
  idle : h.sched = []

theorem Flooded.tick {h : Decoder} {n : ℕ} (hf : Flooded h n) : h.tick = h := by
  unfold Decoder.tick
  rw [hf.idle]

theorem Flooded.room {h : Decoder} {n : ℕ} (hf : Flooded h n) (hn : n < streamBufSize) :
    vpuDecGetBitstreamBuffer h = (h, ⟨.success, 4096, 4096 + n, streamBufSize - 1 - n⟩) := by
  have hroom : u32 (((4096 + streamBufSize : ℕ) : ℤ) - ((4096 + n : ℕ) : ℤ) +
      (((4096 : ℕ) : ℤ) - ((4096 : ℕ) : ℤ)) - 1) = streamBufSize - 1 - n := by
    unfold streamBufSize at hn ⊢
    exact u32_eq (by omega) (by omega)
  unfold vpuDecGetBitstreamBuffer
  simp only [hf.inUse, Bool.not_true, Bool.false_eq_true, if_false, hf.tick, hf.rdPtr, hf.wrPtr,
    hf.endAddr, hf.startAddr, if_neg (Nat.not_lt.mpr (Nat.le_add_right 4096 n)), hroom]

/-- What is written where there is room is committed. -/
theorem Flooded.update {h : Decoder} {n size : ℕ} (hf : Flooded h n) (hsize : size ≠ 0)
    (hn : n + size < streamBufSize) :
    Flooded (vpuDecUpdateBitstreamBuffer h size).1 (n + size) := by
  have hf' : Flooded { h with streamEnd := false } n := { hf with }
  have hnew : u32 (((4096 + n : ℕ) : ℤ) + size) = 4096 + n + size := by
    unfold streamBufSize at hn
    exact u32_eq (by omega) (by omega)
  have hwrap : wrapWrPtr 4096 (4096 + streamBufSize) (4096 + n + size) = 4096 + (n + size) := by
    rw [wrapWrPtr_eq (by omega) (by omega) (by omega) (by unfold streamBufSize; omega),
      Nat.add_sub_cancel_left, Nat.mod_eq_of_lt hn]
  unfold vpuDecUpdateBitstreamBuffer
  rw [if_neg (by simp [hf.inUse]), if_neg hsize]
  simp only [hf'.tick]
  rw [hf.rdPtr, hf.wrPtr, if_neg (fun h => absurd h.1 (by omega))]
  simp only [hf.streaming, Bool.false_eq_true, if_false, hf.startAddr, hf.endAddr, hnew, hwrap]
  exact ⟨hf.inUse, rfl, rfl, rfl, rfl, rfl, hf.idle⟩

theorem Flooded.feed {h : Decoder} {n : ℕ} (hf : Flooded h n)
    (hn : n + 2 * feedChunkSize ≤ streamBufSize) {data : List UInt8} (hpos : data.length ≠ 0)
    (hlen : data.length ≤ feedChunkSize) :
    Flooded (feed h true true (.bytes data)).1 (n + data.length) ∧
      (Stream.feed h true true (.bytes data)).2 = data.length := by
  have hchunk : feedChunkSize ≤ min (min (streamBufSize - n) (streamBufSize - 1 - n))
      feedChunkSize := by
    unfold feedChunkSize streamBufSize at *
    omega
  have hroom : ¬ streamBufSize - 1 - n < 512 := by
    unfold feedChunkSize streamBufSize at *
    omega
  have hlt : n + data.length < streamBufSize := by
    unfold feedChunkSize streamBufSize at *
    omega
  have hcopied : Flooded (h.memcpy n data) n := by
    unfold Decoder.memcpy
    rw [hf.tick]
    exact { hf with }
  have hdone := hcopied.update hpos hlt
  unfold Stream.feed
  simp only [hf.room (by omega), hf.startAddr, Nat.add_sub_cancel_left,
    List.take_of_length_le (Nat.le_trans hlen hchunk), ne_eq, not_true_eq_false, if_false,
    if_neg hroom, if_neg hpos, reduceCtorEq, and_false, and_true]
  exact hdone

section AnyRing

variable {c : Config} {s : Session} {ring : Decoder}

end AnyRing

end Stream
end ToonVpu
