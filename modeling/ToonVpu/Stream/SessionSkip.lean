import ToonVpu.Stream.SessionLock

/-!
# SessionSkip — dropping a backlog (`feed_skip_to_latest` of `apps/vpu_stream.c`)

When much is waiting on the socket, an MPEG-4 session drains it, looks for the last I-VOP in it, and
goes on from there with an empty ring.  Anything else that it drops would be a hole in the stream.

A call does one of three things: nothing, or it puts all that was drained behind what is in the
ring, or it empties the ring and puts in what follows from the last I-VOP on
(`feed_skip_cuts_at_i_vop`).
-/

namespace ToonVpu
namespace Stream

open Foundation
open Foundation.Circular
open Lib

/-! ## I-VOPs -/

/-- An I-VOP begins at byte `i`: its start code, and a byte with the coding type `00`. -/
def IVopAt (p : List UInt8) (i : ℕ) : Prop :=
  i + 4 < p.length ∧ byteAt p i = 0 ∧ byteAt p (i + 1) = 0 ∧ byteAt p (i + 2) = 1 ∧
    byteAt p (i + 3) = 0xb6 ∧ byteAt p (i + 4) / 64 = 0

/-- The last I-VOP begins at byte `i`. -/
def LastIVopAt (p : List UInt8) (i : ℕ) : Prop := IVopAt p i ∧ ∀ j, IVopAt p j → j ≤ i

/-! ## The three outcomes -/

/-- The bytes of a `recv`; none when it fails. -/
def Recv.data : Recv → List UInt8
  | .bytes data => data
  | .fail => []

/-- What the `recv` calls return one after the other, up to the first that returns nothing; the
buffer takes no more than its length. -/
def Backlog.drained (b : Backlog) : List UInt8 :=
  (((b.drain.map Recv.data).takeWhile (· ≠ [])).flatten).take drainBufSize

/-- Enough is pending on the socket, or unread in the ring. -/
def Backlog.Triggers (b : Backlog) (h : Decoder) : Prop :=
  ∃ pending, b.pending = some pending ∧ (32768 ≤ pending ∨ 262144 ≤ (bitstreamUsed h).2)

/-- Between the two rings only the hardware has read on. -/
structure RingUntouched (start : ℕ) (h h' : Decoder) (queue : List UInt8) : Prop where
  mem : h'.mem = h.mem
  wrPtr : h'.streamWrPtr = h.streamWrPtr
  commits : Fifo.commits h'.events = Fifo.commits h.events
  queue : ∃ k, RingInv streamBufSize start h' (queue.drop k) []

/-- The bytes are committed, and they are in the ring behind `queue`, of which the hardware may have
read some. -/
structure RingExtended (start : ℕ) (h h' : Decoder) (queue p : List UInt8) : Prop where
  commits : Fifo.commits h'.events = Fifo.commits h.events ++ [p]
  queue : ∃ k, RingInv streamBufSize start h' (queue.drop k ++ p) []

/-- The library can flush the ring: the handle is that of an open decoder with its buffers
registered, and the lock is free. -/
structure FlushReady (v : Vpu) (i : Inst) : Prop where
  valid : checkDecInstanceValidity v.semap (some i) = .success
  registered : (v.semap.codecInstPool i).frameBufPool = true
  free : v.semap.apiLock = false

/-! ## The search -/

section Search

variable {p : List UInt8} {i n : ℕ} {f : ℕ → Bool}

/-- A search from the end finds the last place. -/
theorem find_reverse_range_eq_some :
    (List.range n).reverse.find? f = some i ↔ i < n ∧ f i = true ∧ ∀ j < n, f j = true → j ≤ i := by
  induction n with
  | zero => simp
  | succ n ih =>
    rw [List.range_succ, List.reverse_append, List.reverse_singleton, List.singleton_append,
      List.find?_cons]
    cases hn : f n with
    | true =>
      simp only [Option.some.injEq]
      constructor
      · rintro rfl
        exact ⟨Nat.lt_succ_self n, hn, fun j hj _ => Nat.le_of_lt_succ hj⟩
      · rintro ⟨hi, -, hlast⟩
        exact Nat.le_antisymm (hlast n (Nat.lt_succ_self n) hn) (Nat.le_of_lt_succ hi)
    | false =>
      simp only
      rw [ih]
      constructor
      · rintro ⟨hi, hfi, hlast⟩
        refine ⟨Nat.lt_succ_of_lt hi, hfi, fun j hj hfj => ?_⟩
        rcases Nat.lt_succ_iff_lt_or_eq.mp hj with hj | rfl
        · exact hlast j hj hfj
        · rw [hn] at hfj
          cases hfj
      · rintro ⟨hi, hfi, hlast⟩
        refine ⟨?_, hfi, fun j hj => hlast j (Nat.lt_succ_of_lt hj)⟩
        rcases Nat.lt_succ_iff_lt_or_eq.mp hi with hi | rfl
        · exact hi
        · rw [hn] at hfi
          cases hfi

theorem findResyncStart_some_iff {codec : CodStd} (hcodec : codec ≠ .avc) :
    findResyncStart codec p = some i ↔ LastIVopAt p i := by
  unfold findResyncStart LastIVopAt IVopAt
  rw [if_neg hcodec, find_reverse_range_eq_some]
  simp only [decide_eq_true_eq]
  constructor
  · rintro ⟨hi, hvop, hlast⟩
    exact ⟨⟨by omega, hvop⟩, fun j ⟨hj, hvop'⟩ => hlast j (by omega) hvop'⟩
  · rintro ⟨⟨hi, hvop⟩, hlast⟩
    exact ⟨by omega, hvop, fun j hj hvop' => hlast j ⟨by omega, hvop'⟩⟩

theorem findResyncStart_none_iff {codec : CodStd} (hcodec : codec ≠ .avc) :
    findResyncStart codec p = none ↔ ∀ i, ¬ IVopAt p i := by
  unfold findResyncStart IVopAt
  rw [if_neg hcodec, List.find?_eq_none]
  simp only [List.mem_reverse, List.mem_range, decide_eq_true_eq]
  constructor
  · rintro h i ⟨hi, hvop⟩
    exact h i (by omega) hvop
  · intro h i hi hvop
    exact h i ⟨by omega, hvop⟩

end Search

/-! ## The calls -/

section Calls

variable {start : ℕ} {h : Decoder} {queue p : List UInt8} {v : Vpu} {i : Inst}

/-- A chunk that fits is written whole. -/
theorem RingExtended.of_fits (hring : RingInv streamBufSize start h queue []) (hp : p ≠ [])
    (hfits : queue.length + p.length < streamBufSize) :
    RingExtended start h (bsRingWrite h p).1 queue p := by
  obtain ⟨k, hk, hget⟩ := hring.getBitstreamBuffer
  obtain ⟨k', hring', hcommits⟩ := bsRingWrite_spec hring p
  have hall : p.take (vpuDecGetBitstreamBuffer h).2.size = p := by
    rw [hget]
    refine List.take_of_length_le ?_
    simp only [List.length_drop]
    omega
  rw [hall] at hring' hcommits
  rw [if_neg hp] at hcommits
  exact ⟨hcommits, k', hring'⟩

/-- What the hardware reads before the call does not count. -/
theorem RingExtended.after_tick {h' : Decoder} {k : ℕ}
    (hext : RingExtended start h.tick h' (queue.drop k) p) : RingExtended start h h' queue p := by
  obtain ⟨k', hring'⟩ := hext.queue
  rw [List.drop_drop] at hring'
  exact ⟨hext.commits.trans (by rw [Decoder.commits_tick]), _, hring'⟩

/-- A look at the ring lets the hardware read on. -/
theorem RingUntouched.tick (hring : RingInv streamBufSize start h queue []) :
    RingUntouched start h h.tick queue := by
  obtain ⟨k, hk⟩ := hring.tick
  exact ⟨h.tick_mem, h.tick_wrPtr, Decoder.commits_tick h, k, hk⟩

theorem RingUntouched.refl (hring : RingInv streamBufSize start h queue []) :
    RingUntouched start h h queue :=
  ⟨rfl, rfl, rfl, 0, hring⟩

theorem FlushReady.flush (hready : FlushReady v i) :
    (vpuDecBitBufferFlush v (some i)).2 = .success := by
  unfold vpuDecBitBufferFlush onInstance
  rw [hready.valid]
  simp only [hready.registered, Bool.not_true, Bool.false_eq_true, if_false]
  rw [Vpu.underLock_free hready.free]

/-- In the decode loop it can. -/
theorem LockInv.flushReady {s : Session} (hinv : LockInv s) (hphase : s.phase = .decoding) :
    ∃ i, s.h = some i ∧ FlushReady s.vpu i := by
  obtain ⟨i, hr⟩ := hinv.decoding hphase
  exact ⟨i, hr.handle, hr.valid, hr.registered, hinv.free (by rw [hphase]; decide)⟩

theorem take_append_take {α : Type*} (n : ℕ) (xs more : List α) :
    (xs.take n ++ more).take n = (xs ++ more).take n := by
  have hlen : n - (xs.take n).length = n - xs.length := by
    rw [List.length_take]
    omega
  rw [List.take_append, List.take_append, List.take_take, Nat.min_self, hlen]

/-- The loop gets what the `recv` calls return, until the buffer is full. -/
theorem drainLoop_eq (recvs : List Recv) (tmp : List UInt8) (h : tmp.length ≤ drainBufSize) :
    drainLoop recvs tmp =
      (tmp ++ ((recvs.map Recv.data).takeWhile (· ≠ [])).flatten).take drainBufSize := by
  induction recvs generalizing tmp with
  | nil =>
    rw [List.map_nil, List.takeWhile_nil, List.flatten_nil, List.append_nil,
      List.take_of_length_le h]
    rfl
  | cons r rest ih =>
    cases r with
    | fail =>
      rw [List.map_cons, List.takeWhile_cons_of_neg (by simp [Recv.data]), List.flatten_nil,
        List.append_nil, List.take_of_length_le h]
      rfl
    | bytes data =>
      rw [drainLoop, List.map_cons]
      by_cases hdata : data = []
      · rw [List.takeWhile_cons_of_neg (by simp [Recv.data, hdata]), List.flatten_nil,
          List.append_nil, List.take_of_length_le h, hdata, List.take_nil, if_pos List.length_nil]
      · rw [List.takeWhile_cons_of_pos (by simp [Recv.data, hdata]), List.flatten_cons]
        generalize ((rest.map Recv.data).takeWhile (· ≠ [])).flatten = more at ih ⊢
        by_cases hfull : (data.take (drainBufSize - tmp.length)).length = 0
        · -- The buffer is full already.
          have hpos := List.length_pos_of_ne_nil hdata
          rw [List.length_take] at hfull
          rw [if_pos (by rw [List.length_take]; omega), List.take_append_of_le_length (by omega),
            List.take_of_length_le h]
        · have hle : (tmp ++ data.take (drainBufSize - tmp.length)).length ≤ drainBufSize := by
            rw [List.length_append, List.length_take]
            omega
          rw [if_neg hfull, ih _ hle]
          -- What the buffer does not take of `data` is behind its end.
          have hbehind : ∀ ys, (tmp ++ ys).take drainBufSize =
              tmp.take drainBufSize ++ ys.take (drainBufSize - tmp.length) :=
            fun ys => List.take_append
          rw [List.append_assoc, hbehind, hbehind, take_append_take]
          rfl

theorem Backlog.drained_eq (b : Backlog) : drainLoop b.drain [] = b.drained := by
  rw [drainLoop_eq b.drain [] (Nat.zero_le _), List.nil_append]
  rfl

/-- What a call does to the ring when a skip is triggered. -/
theorem feedSkipToLatest_triggered {codec : CodStd} {handle : DecHandle} {b : Backlog}
    (hcodec : codec ≠ .avc) (hring : RingInv streamBufSize start h queue [])
    (htriggers : b.Triggers h) :
    (feedSkipToLatest codec v handle h b).2 =
      if b.drained = [] then
        h.tick
      else
        match findResyncStart codec b.drained with
        | none => (bsRingWrite h.tick b.drained).1
        | some startAt =>
          (bsRingWrite
            (if (vpuDecBitBufferFlush v handle).2 = .success then vpuDecBitBufferFlushRing h.tick
              else h.tick) (b.drained.drop startAt)).1 := by
  obtain ⟨k, -, hused, -⟩ := bitstreamUsed_spec hring
  obtain ⟨pending, hpending, hmany⟩ := htriggers
  rw [hused] at hmany
  have hnot : ¬ (pending < 32768 ∧ ((queue.drop k).length : ℤ) < 262144) := by omega
  unfold feedSkipToLatest
  rw [if_neg hcodec, hpending]
  simp only [hused, if_neg hnot, b.drained_eq, List.length_eq_zero_iff]
  split
  · rfl
  · cases findResyncStart codec b.drained with
    | none => rfl
    | some startAt => rfl

/-- Without one it has looked at the ring at most. -/
theorem feedSkipToLatest_idle {codec : CodStd} {b : Backlog} (v : Vpu) (handle : DecHandle)
    (hcodec : codec ≠ .avc) (hring : RingInv streamBufSize start h queue [])
    (hnot : ¬ b.Triggers h) :
    (feedSkipToLatest codec v handle h b).2 = h ∨
      (feedSkipToLatest codec v handle h b).2 = h.tick := by
  obtain ⟨k, -, hused, -⟩ := bitstreamUsed_spec hring
  unfold feedSkipToLatest
  rw [if_neg hcodec]
  cases hpending : b.pending with
  | none => exact .inl rfl
  | some pending =>
    have hfew : pending < 32768 ∧ (bitstreamUsed h).2 < 262144 := by
      by_contra hmany
      exact hnot ⟨pending, hpending, by omega⟩
    rw [hused] at hfew
    simp only [hused, if_pos hfew]
    exact .inr trivial

/-- A call does nothing, or puts all that was drained behind what is in the ring, or empties the
ring and puts in what was drained from the last I-VOP on; no byte of it is lost. -/
theorem feed_skip_cuts_at_i_vop {codec : CodStd} (hcodec : codec ≠ .avc) (hready : FlushReady v i)
    (hring : RingInv streamBufSize start h queue [])
    (hroom : queue.length + drainBufSize < streamBufSize) (b : Backlog) :
    let h' := (feedSkipToLatest codec v (some i) h b).2
    (¬ b.Triggers h ∨ b.drained = [] → RingUntouched start h h' queue) ∧
      (b.Triggers h → b.drained ≠ [] → (∀ j, ¬ IVopAt b.drained j) →
        RingExtended start h h' queue b.drained) ∧
      (b.Triggers h → ∀ j, LastIVopAt b.drained j →
        RingExtended start h h' [] (b.drained.drop j)) := by
  intro h'
  obtain ⟨k, hk⟩ := hring.tick
  have hlen : b.drained.length ≤ drainBufSize := List.length_take_le _ _
  by_cases htriggers : b.Triggers h
  · have hcall : h' = _ := feedSkipToLatest_triggered hcodec hring htriggers
    refine ⟨?_, fun _ hne hnone => ?_, fun _ j hvop => ?_⟩
    · rintro (hnot | hempty)
      · exact absurd htriggers hnot
      · rw [hcall, if_pos hempty]
        exact .tick hring
    · rw [hcall, if_neg hne, (findResyncStart_none_iff hcodec).mpr hnone]
      have hbelow : (queue.drop k).length ≤ queue.length := by
        rw [List.length_drop]
        exact Nat.sub_le _ _
      exact .after_tick (.of_fits hk hne (by omega))
    · have hlt := hvop.1.1
      have hne : b.drained ≠ [] := by
        rintro hempty
        rw [hempty] at hlt
        exact absurd hlt (Nat.not_lt_zero _)
      have hsuffix : (b.drained.drop j).length = b.drained.length - j := List.length_drop
      rw [hcall, if_neg hne, (findResyncStart_some_iff hcodec).mpr hvop]
      simp only [hready.flush, if_true]
      -- The ring is empty, so that there is room for all of it.
      have hfits : RingExtended start (vpuDecBitBufferFlushRing h.tick) _ [] (b.drained.drop j) :=
        .of_fits hk.bitBufferFlush (by rw [← List.length_pos_iff]; omega)
          (by rw [List.length_nil]; omega)
      refine ⟨?_, hfits.queue⟩
      rw [hfits.commits]
      simp [vpuDecBitBufferFlushRing]
  · have hidle : RingUntouched start h h' queue := by
      rcases feedSkipToLatest_idle v (some i) hcodec hring htriggers with hsame | htick
      · rw [show h' = h from hsame]
        exact .refl hring
      · rw [show h' = h.tick from htick]
        exact .tick hring
    exact ⟨fun _ => hidle, fun h => absurd h htriggers, fun h => absurd h htriggers⟩

end Calls

/-- A library with every decoder open and its buffers registered. -/
def registeredVpu : Vpu :=
  { semap :=
      { Semaphore.zero with
        codecInstPool := fun _ => { CodecInst.zero with inUse := true, frameBufPool := true } }
    past := []
    selfWaits := 0
    issued := [] }

/-- A P-VOP and an I-VOP in two pieces: the session goes on from the I-VOP. -/
theorem feed_skip_to_second_vop :
    let b : Backlog :=
      ⟨some 40000, [.bytes [0, 0, 1, 0xb6, 0x40, 0, 0], .bytes [1, 0xb6, 0, 7], .fail]⟩
    let h := vpuDecOpenRing 4096 streamBufSize (fun _ => 0) []
    RingExtended 4096 h (feedSkipToLatest .mpeg4 registeredVpu (some 0) h b).2 []
      [0, 0, 1, 0xb6, 0, 7] := by
  intro b h
  have hready : FlushReady registeredVpu 0 := ⟨by decide, rfl, rfl⟩
  have hring : RingInv streamBufSize 4096 h [] [] :=
    .decOpen _ _ (by decide) (by decide)
  have hlast : LastIVopAt b.drained 5 :=
    (findResyncStart_some_iff (show CodStd.mpeg4 ≠ .avc by decide)).mp (by decide +kernel)
  exact (feed_skip_cuts_at_i_vop (by decide) hready hring (by decide) b).2.2
    ⟨40000, rfl, .inl (by decide)⟩ 5 hlast

end Stream
end ToonVpu
