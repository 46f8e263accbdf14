import ToonVpu.Foundation.Circular
import ToonVpu.Foundation.Machine

/-!
# Bitstream — the decoder's bitstream ring (`lib/vpu_lib.c`)

The application writes compressed data into a ring in shared memory and tells libvpu how much it
wrote; the VPU reads from the ring on its own and publishes its read pointer in a register.  The
state below is the part of `DecInfo` that describes the ring, the read-pointer register, and the
memory itself.

The VPU runs concurrently with the application.  Its progress is an oracle, `sched`: before the
application reads a register or writes ring memory, the hardware may consume any number of the
bytes between the pointers (`tick`).  `events` records what was committed, read and discarded, and
`remarks` what a writer says it did; neither is read by the program.
-/

namespace ToonVpu
namespace Lib

open Foundation
open Foundation.Circular

/-- The return codes of the modelled library calls. -/
inductive RetCode
  | success
  | failure
  | invalidHandle
  | invalidParam
  | invalidFrameBuffer
  | insufficientFrameBuffers
  | invalidStride
  | wrongCallSequence
  | calledBefore
  | notInitialized
  | failureTimeout
  deriving DecidableEq, Repr

/-! ## State -/

/-- The account that a writer which stages data keeps of its work. -/
inductive Remark
  /-- A piece was copied behind what is staged already. -/
  | staged (piece : List UInt8)
  /-- The last `len` bytes were handed over. -/
  | flushed (len : ℕ)
  deriving DecidableEq, Repr

/-- The bitstream part of an open decoder instance, with the ring it describes. -/
structure Decoder where
  inUse : Bool
  streamBufStartAddr : ℕ
  streamBufEndAddr : ℕ
  streamWrPtr : ℕ
  filePlayEnable : Bool
  /-- The register `BIT_RD_PTR` of the instance. -/
  rdPtr : ℕ
  /-- The instance's stream-end bit in `BIT_BIT_STREAM_PARAM`. -/
  streamEnd : Bool
  /-- The ring, indexed from `streamBufStartAddr`. -/
  mem : ℕ → UInt8
  sched : List ℕ
  events : List (Fifo.Event UInt8)
  remarks : List Remark

namespace Decoder

/-- The length of the ring. -/
def size (d : Decoder) : ℕ := d.streamBufEndAddr - d.streamBufStartAddr

/-- The number of bytes from the read pointer up to the write pointer, as the hardware counts. -/
def unread (d : Decoder) : ℕ := (d.streamWrPtr + d.size - d.rdPtr) % d.size

/-- The bytes the hardware has not read yet. -/
def unreadBytes (d : Decoder) : List UInt8 :=
  window d.size d.mem (d.rdPtr - d.streamBufStartAddr) d.unread

/-- The hardware consumes `k` bytes, or all there are. -/
def hwRead (d : Decoder) (k : ℕ) : Decoder :=
  let n := min k d.unread
  { d with
    rdPtr := d.streamBufStartAddr + (d.rdPtr - d.streamBufStartAddr + n) % d.size
    events := d.events ++ [.read (window d.size d.mem (d.rdPtr - d.streamBufStartAddr) n)] }

/-- The next piece of hardware progress. -/
def tick (d : Decoder) : Decoder :=
  match d.sched with
  | [] => d
  | k :: ks => hwRead { d with sched := ks } k

/-- A `memcpy` to offset `off` of the ring. -/
def memcpy (d : Decoder) (off : ℕ) (xs : List UInt8) : Decoder :=
  let d := d.tick
  { d with mem := blit d.mem off xs }

def remark (d : Decoder) (r : Remark) : Decoder := { d with remarks := d.remarks ++ [r] }

end Decoder

/-! ## Library calls -/

/-- The ring part of `vpu_DecOpen`: both pointers go to the start of the buffer.  What the ring
memory holds and what the hardware will do are left open. -/
def vpuDecOpenRing (bitstreamBuffer bitstreamBufferSize : ℕ) (mem : ℕ → UInt8)
    (sched : List ℕ) : Decoder :=
  { inUse := true
    streamBufStartAddr := bitstreamBuffer
    streamBufEndAddr := u32 (bitstreamBuffer + bitstreamBufferSize)
    streamWrPtr := bitstreamBuffer
    filePlayEnable := false
    rdPtr := bitstreamBuffer
    streamEnd := false
    mem := mem
    sched := sched
    events := []
    remarks := [] }

/-- What `vpu_DecGetBitstreamBuffer` returns. -/
structure BitstreamBuffer where
  ret : RetCode
  paRdPtr : ℕ
  paWrPtr : ℕ
  size : ℕ
  deriving DecidableEq, Repr

def vpuDecGetBitstreamBuffer (d : Decoder) : Decoder × BitstreamBuffer :=
  if !d.inUse then
    (d, ⟨.invalidHandle, 0, 0, 0⟩)
  else
    let d := d.tick
    let rdPtr : ℕ := d.rdPtr
    let wrPtr : ℕ := d.streamWrPtr
    let room :=
      if wrPtr < rdPtr then
        u32 ((rdPtr : ℤ) - wrPtr - 1)
      else
        u32 (((d.streamBufEndAddr : ℤ) - wrPtr) + ((rdPtr : ℤ) - d.streamBufStartAddr) - 1)
    (d, ⟨.success, rdPtr, wrPtr, room⟩)

/-- The wrap of an advanced write pointer in `vpu_DecUpdateBitstreamBuffer`; `room` is an `int`
there. -/
def wrapWrPtr (startAddr endAddr wrPtr : ℕ) : ℕ :=
  let wrPtr :=
    if endAddr < wrPtr then
      let room := i32 ((wrPtr : ℤ) - endAddr)
      u32 ((startAddr : ℤ) + room)
    else
      wrPtr
  if wrPtr = endAddr then startAddr else wrPtr

def vpuDecUpdateBitstreamBuffer (d : Decoder) (size : ℕ) : Decoder × RetCode :=
  if !d.inUse then
    ({ d with events := d.events ++ [.reject size] }, .invalidHandle)
  else if size = 0 then
    -- The stream end flag.
    ({ d with streamEnd := true }, .success)
  else
    let d := Decoder.tick { d with streamEnd := false }
    let rdPtr : ℕ := d.rdPtr
    let wrPtr : ℕ := d.streamWrPtr
    -- The bytes would reach the read pointer; the sum is one of `Uint32`.
    if wrPtr < rdPtr ∧ rdPtr ≤ u32 ((wrPtr : ℤ) + size) then
      ({ d with events := d.events ++ [.reject size] }, .invalidParam)
    else
      let wrNew := u32 ((wrPtr : ℤ) + size)
      ({ d with
          streamWrPtr :=
            if d.filePlayEnable then wrNew
            else wrapWrPtr d.streamBufStartAddr d.streamBufEndAddr wrNew
          events := d.events ++
            [.commit (window d.size d.mem (wrPtr - d.streamBufStartAddr) size)] },
        .success)

/-- The ring part of a successful `vpu_DecBitBufferFlush`: the hardware command moves the read
pointer to the start of the buffer, the library the write pointer. -/
def vpuDecBitBufferFlushRing (d : Decoder) : Decoder :=
  let d := d.tick
  { d with
    rdPtr := d.streamBufStartAddr
    streamWrPtr := d.streamBufStartAddr
    events := d.events ++ [.flush] }

/-! ## The representation invariant -/

/-- The ring `d` of `N` bytes at address `start` holds `queue` (committed, unread) and behind it
`staged` (written at the write pointer, not committed).  The last address the library computes,
`start + 2 * N`, fits a physical address. -/
structure RingInv (N start : ℕ) (d : Decoder) (queue staged : List UInt8) : Prop where
  inUse : d.inUse = true
  streaming : d.filePlayEnable = false
  startAddr : d.streamBufStartAddr = start
  endAddr : d.streamBufEndAddr = start + N
  below : start + 2 * N ≤ 4294967296
  rdPtr_le : start ≤ d.rdPtr
  holds : Holds N d.mem (d.rdPtr - start) queue staged
  wrPtr_eq : d.streamWrPtr = start + (d.rdPtr - start + queue.length) % N
  fifo : Fifo.run d.events = some queue
  accepted : Fifo.Accepted d.events

/-! ## Frame lemmas -/

namespace Decoder

section Frame

variable (d : Decoder)

@[simp] theorem hwRead_mem (k : ℕ) : (d.hwRead k).mem = d.mem := rfl

@[simp] theorem tick_inUse : d.tick.inUse = d.inUse := by
  unfold tick; split <;> rfl

@[simp] theorem tick_startAddr : d.tick.streamBufStartAddr = d.streamBufStartAddr := by
  unfold tick; split <;> rfl

@[simp] theorem tick_endAddr : d.tick.streamBufEndAddr = d.streamBufEndAddr := by
  unfold tick; split <;> rfl

@[simp] theorem tick_wrPtr : d.tick.streamWrPtr = d.streamWrPtr := by
  unfold tick; split <;> rfl

@[simp] theorem tick_filePlayEnable : d.tick.filePlayEnable = d.filePlayEnable := by
  unfold tick; split <;> rfl

@[simp] theorem tick_mem : d.tick.mem = d.mem := by
  unfold tick; split <;> rfl

@[simp] theorem tick_size : d.tick.size = d.size := by
  simp [size]

@[simp] theorem commits_hwRead (k : ℕ) :
    Fifo.commits (d.hwRead k).events = Fifo.commits d.events := by
  simp [hwRead]

@[simp] theorem commits_tick : Fifo.commits d.tick.events = Fifo.commits d.events := by
  unfold tick
  split
  · rfl
  · simp

theorem hwRead_grows (k : ℕ) : Fifo.Grows d.events (d.hwRead k).events :=
  .concat _ (by simp)

theorem tick_grows : Fifo.Grows d.events d.tick.events := by
  unfold tick
  split
  · exact .refl _
  · exact hwRead_grows _ _

@[simp] theorem commits_memcpy (off : ℕ) (xs : List UInt8) :
    Fifo.commits (d.memcpy off xs).events = Fifo.commits d.events := by
  simp [memcpy]

@[simp] theorem memcpy_wrPtr (off : ℕ) (xs : List UInt8) :
    (d.memcpy off xs).streamWrPtr = d.streamWrPtr := by
  simp [memcpy]

@[simp] theorem tick_remarks : d.tick.remarks = d.remarks := by
  unfold tick; split <;> rfl

@[simp] theorem memcpy_remarks (off : ℕ) (xs : List UInt8) :
    (d.memcpy off xs).remarks = d.remarks := by
  simp [memcpy]

@[simp] theorem getBitstreamBuffer_remarks :
    (vpuDecGetBitstreamBuffer d).1.remarks = d.remarks := by
  unfold vpuDecGetBitstreamBuffer
  split <;> simp

@[simp] theorem updateBitstreamBuffer_remarks (size : ℕ) :
    (vpuDecUpdateBitstreamBuffer d size).1.remarks = d.remarks := by
  unfold vpuDecUpdateBitstreamBuffer
  simp only
  split_ifs <;> simp

theorem updateBitstreamBuffer_grows (size : ℕ) :
    Fifo.Grows d.events (vpuDecUpdateBitstreamBuffer d size).1.events := by
  have htick := tick_grows { d with streamEnd := false }
  unfold vpuDecUpdateBitstreamBuffer
  simp only
  split_ifs
  · exact .concat _ (by simp)
  · exact .refl _
  all_goals exact htick.trans (.concat _ (by simp))

@[simp] theorem remark_events (r : Remark) : (d.remark r).events = d.events := rfl

@[simp] theorem remark_unread (r : Remark) : (d.remark r).unread = d.unread := rfl

end Frame

end Decoder

/-! ## One rule for each library call -/

/-- Advancing the write pointer by less than the ring's length is addition modulo that length. -/
theorem wrapWrPtr_eq {N start wr n : ℕ} (hl : start ≤ wr) (hu : wr < start + N) (hn : n < N)
    (hbelow : start + 2 * N ≤ 4294967296) :
    wrapWrPtr start (start + N) (wr + n) = start + (wr - start + n) % N := by
  unfold wrapWrPtr
  rcases add_mod_cases (show wr - start < N by omega) (show n ≤ N by omega) with
    ⟨_, hm⟩ | ⟨_, hm⟩
  · rw [hm]
    simp only
    rw [if_neg (show ¬ start + N < wr + n by omega), if_neg (by omega)]
    omega
  · rw [hm]
    simp only
    by_cases hover : start + N < wr + n
    · have hsum : u32 ((start : ℤ) + i32 (((wr + n : ℕ) : ℤ) - (start + N : ℕ))) = wr + n - N := by
        rw [i32_eq (by omega) (by omega)]
        exact u32_eq (by omega) (by omega)
      rw [if_pos hover, hsum, if_neg (by omega)]
      omega
    · rw [if_neg hover, if_pos (by omega)]
      omega

namespace RingInv

variable {N start : ℕ} {d : Decoder} {queue staged : List UInt8}

theorem remark (h : RingInv N start d queue staged) (r : Remark) :
    RingInv N start (d.remark r) queue staged :=
  { h with }

theorem size_eq (h : RingInv N start d queue staged) : d.size = N := by
  simp [Decoder.size, h.startAddr, h.endAddr]

theorem rdPtr_eq (h : RingInv N start d queue staged) :
    d.rdPtr = start + (d.rdPtr - start) := by
  have hle := h.rdPtr_le
  omega

/-- The write pointer stays in `[start, start + N)`. -/
theorem wrPtr_mem (h : RingInv N start d queue staged) :
    start ≤ d.streamWrPtr ∧ d.streamWrPtr < start + N := by
  have hpos : 0 < N := Nat.lt_of_le_of_lt (Nat.zero_le _) h.holds.rd_lt
  have hmod := Nat.mod_lt (d.rdPtr - start + queue.length) hpos
  rw [h.wrPtr_eq]
  omega

theorem unread_eq (h : RingInv N start d queue staged) : d.unread = queue.length := by
  have hroom := h.holds.room
  have hrd := h.rdPtr_eq
  have hlt := h.holds.rd_lt
  unfold Decoder.unread
  rw [h.size_eq, h.wrPtr_eq]
  rcases add_mod_cases hlt (show queue.length ≤ N by omega) with ⟨_, hm⟩ | ⟨_, hm⟩
  · have hsum : start + (d.rdPtr - start + queue.length) + N - d.rdPtr = queue.length + N := by
      omega
    rw [hm, hsum, Nat.add_mod_right, Nat.mod_eq_of_lt (by omega)]
  · have hsum : start + (d.rdPtr - start + queue.length - N) + N - d.rdPtr = queue.length := by
      omega
    rw [hm, hsum, Nat.mod_eq_of_lt (by omega)]

/-- What the hardware can still read is the queue. -/
theorem unreadBytes_eq (h : RingInv N start d queue staged) : d.unreadBytes = queue := by
  unfold Decoder.unreadBytes
  rw [h.size_eq, h.unread_eq, h.startAddr, h.holds.front (Nat.le_refl _), List.take_length]

/-- The offset of the first free cell does not depend on the reader's progress. -/
theorem wrOff_eq (h : RingInv N start d queue staged) :
    (d.streamWrPtr - start + staged.length) % N =
      (d.rdPtr - start + (queue.length + staged.length)) % N := by
  rw [h.wrPtr_eq, Nat.add_sub_cancel_left, Nat.mod_add_mod, Nat.add_assoc]

theorem hwRead (h : RingInv N start d queue staged) (k : ℕ) :
    RingInv N start (d.hwRead k) (queue.drop (min k queue.length)) staged := by
  have hk : min k queue.length ≤ queue.length := Nat.min_le_right _ _
  have hoff : (d.hwRead k).rdPtr - start = (d.rdPtr - start + min k queue.length) % N := by
    simp [Decoder.hwRead, h.unread_eq, h.size_eq, h.startAddr]
  refine ⟨h.inUse, h.streaming, h.startAddr, h.endAddr, h.below, ?_, ?_, ?_, ?_, ?_⟩
  · simp [Decoder.hwRead, h.startAddr]
  · rw [hoff]
    exact h.holds.read hk
  · rw [hoff, Nat.mod_add_mod]
    have hlen : d.rdPtr - start + min k queue.length + (queue.drop (min k queue.length)).length =
        d.rdPtr - start + queue.length := by
      rw [List.length_drop]
      omega
    rw [hlen]
    exact h.wrPtr_eq
  · apply Fifo.run_concat h.fifo
    have hfront : window d.size d.mem (d.rdPtr - d.streamBufStartAddr) (min k d.unread) =
        queue.take (min k queue.length) := by
      rw [h.size_eq, h.startAddr, h.unread_eq, h.holds.front hk]
    rw [hfront]
    simp [Fifo.step]
  · exact h.accepted.concat (by simp)

/-- Hardware progress only shortens the queue. -/
theorem tick (h : RingInv N start d queue staged) :
    ∃ k, RingInv N start d.tick (queue.drop k) staged := by
  unfold Decoder.tick
  split
  · exact ⟨0, by simpa using h⟩
  · rename_i k ks _
    have h' : RingInv N start { d with sched := ks } queue staged := { h with }
    exact ⟨_, h'.hwRead k⟩

/-- `vpu_DecGetBitstreamBuffer` reports the room the current queue leaves. -/
theorem getBitstreamBuffer (h : RingInv N start d queue staged) :
    ∃ k, RingInv N start d.tick (queue.drop k) staged ∧
      vpuDecGetBitstreamBuffer d =
        (d.tick, ⟨.success, d.tick.rdPtr, d.streamWrPtr, N - 1 - (queue.drop k).length⟩) := by
  obtain ⟨k, hk⟩ := h.tick
  refine ⟨k, hk, ?_⟩
  have hbelow := h.below
  have hroom := hk.holds.room
  have hlt := hk.holds.rd_lt
  have hrd := hk.rdPtr_eq
  have hwr := hk.wrPtr_eq
  rw [Decoder.tick_wrPtr] at hwr
  generalize hlen : (queue.drop k).length = len at *
  generalize hr : d.tick.rdPtr - start = r at *
  have hsize : (if d.streamWrPtr < d.tick.rdPtr then
        u32 ((d.tick.rdPtr : ℤ) - d.streamWrPtr - 1)
      else
        u32 (((start + N : ℕ) : ℤ) - d.streamWrPtr + ((d.tick.rdPtr : ℤ) - start) - 1)) =
      N - 1 - len := by
    rcases add_mod_cases hlt (show len ≤ N by omega) with ⟨_, hm⟩ | ⟨_, hm⟩
    · rw [hm] at hwr
      rw [if_neg (by omega)]
      exact u32_eq (by omega) (by omega)
    · rw [hm] at hwr
      rw [if_pos (by omega)]
      exact u32_eq (by omega) (by omega)
  simp [vpuDecGetBitstreamBuffer, h.inUse, h.startAddr, h.endAddr, ← hsize]

/-- A copy that starts at the first free cell and does not cross the end of the ring. -/
theorem memcpy (h : RingInv N start d queue staged) (off : ℕ) (xs : List UInt8)
    (hoff : off = (d.streamWrPtr - start + staged.length) % N)
    (hend : xs.length ≤ N - off)
    (hroom : queue.length + staged.length + xs.length < N) :
    ∃ k, RingInv N start (d.memcpy off xs) (queue.drop k) (staged ++ xs) := by
  obtain ⟨k, hk⟩ := h.tick
  have hlen : (queue.drop k).length ≤ queue.length := by simp
  have hstage := hk.holds.stage xs (by omega)
  rw [← hk.wrOff_eq, Decoder.tick_wrPtr, ← hoff, store_eq_blit hend] at hstage
  exact ⟨k, { hk with holds := hstage }⟩

/-- What is staged is found behind the write pointer. -/
theorem staged_window (h : RingInv N start d queue staged) :
    window N d.mem (d.streamWrPtr - start) staged.length = staged := by
  have hw := h.holds.staged_window
  rwa [← Nat.add_sub_cancel_left (n := start) (m := (d.rdPtr - start + _) % N), ← h.wrPtr_eq] at hw

/-- `vpu_DecUpdateBitstreamBuffer` with the length of what is staged succeeds and commits it. -/
theorem updateBitstreamBuffer (h : RingInv N start d queue staged) (hne : staged ≠ []) :
    ∃ k, RingInv N start (vpuDecUpdateBitstreamBuffer d staged.length).1
        (queue.drop k ++ staged) [] ∧
      (vpuDecUpdateBitstreamBuffer d staged.length).2 = .success ∧
      Fifo.commits (vpuDecUpdateBitstreamBuffer d staged.length).1.events =
        Fifo.commits d.events ++ [staged] := by
  have h₀ : RingInv N start { d with streamEnd := false } queue staged := { h with }
  obtain ⟨k, hk⟩ := h₀.tick
  have hpos : 0 < staged.length := List.length_pos_iff.2 hne
  have hcommits : Fifo.commits (Decoder.tick { d with streamEnd := false }).events =
      Fifo.commits d.events := Decoder.commits_tick _
  generalize hdt : Decoder.tick { d with streamEnd := false } = dt at *
  have hbelow := hk.below
  have hroom := hk.holds.room
  have hlt := hk.holds.rd_lt
  have hrd := hk.rdPtr_eq
  have hwr := hk.wrPtr_eq
  have hmem := hk.wrPtr_mem
  have hsum : u32 ((dt.streamWrPtr : ℤ) + staged.length) = dt.streamWrPtr + staged.length :=
    u32_eq (by omega) (by omega)
  -- The commit is not refused: the new write pointer stays behind the read pointer.
  have haccept : ¬ (dt.streamWrPtr < dt.rdPtr ∧ dt.rdPtr ≤ dt.streamWrPtr + staged.length) := by
    rcases add_mod_cases hlt (show (queue.drop k).length ≤ N by omega) with ⟨_, hm⟩ | ⟨_, hm⟩ <;>
      · rw [hm] at hwr
        omega
  have hwrap : wrapWrPtr start (start + N) (dt.streamWrPtr + staged.length) =
      start + (dt.streamWrPtr - start + staged.length) % N :=
    wrapWrPtr_eq hmem.1 hmem.2 (by omega) hbelow
  have hstaged : window N dt.mem (dt.streamWrPtr - start) staged.length = staged :=
    hk.staged_window
  have hupdate : vpuDecUpdateBitstreamBuffer d staged.length =
      ({ dt with
          streamWrPtr := start + (dt.streamWrPtr - start + staged.length) % N
          events := dt.events ++ [.commit staged] }, .success) := by
    unfold vpuDecUpdateBitstreamBuffer
    rw [if_neg (by simp [h.inUse]), if_neg (Nat.ne_of_gt hpos)]
    simp only [hdt, hsum, if_neg haccept, hk.streaming, Bool.false_eq_true, if_false,
      hk.startAddr, hk.endAddr, hk.size_eq, hstaged, hwrap]
  refine ⟨k, ?_, by rw [hupdate], by rw [hupdate]; simp [hcommits]⟩
  rw [hupdate]
  refine ⟨hk.inUse, hk.streaming, hk.startAddr, hk.endAddr, hk.below, hk.rdPtr_le,
    hk.holds.publish, ?_, ?_, ?_⟩
  · simp only [List.length_append]
    rw [hwr, Nat.add_sub_cancel_left, Nat.mod_add_mod, Nat.add_assoc]
  · exact Fifo.run_concat hk.fifo rfl
  · exact hk.accepted.concat (by simp)

/-- The writer gives up what it staged. -/
theorem unstage (h : RingInv N start d queue staged) : RingInv N start d queue [] :=
  { h with holds := h.holds.unstage }

/-- `vpu_DecBitBufferFlush` empties the ring. -/
theorem bitBufferFlush (h : RingInv N start d queue staged) :
    RingInv N start (vpuDecBitBufferFlushRing d) [] [] := by
  obtain ⟨k, hk⟩ := h.tick
  have hpos : 0 < N := Nat.lt_of_le_of_lt (Nat.zero_le _) hk.holds.rd_lt
  refine ⟨hk.inUse, hk.streaming, hk.startAddr, hk.endAddr, hk.below, ?_, ?_, ?_, ?_, ?_⟩
  · simp [vpuDecBitBufferFlushRing, h.startAddr]
  · simpa [vpuDecBitBufferFlushRing, h.startAddr] using Holds.empty d.mem hpos
  · simp [vpuDecBitBufferFlushRing, h.startAddr, Nat.mod_eq_of_lt hpos]
  · exact Fifo.run_concat hk.fifo rfl
  · exact hk.accepted.concat (by simp)

/-- `vpu_DecOpen` starts with an empty ring. -/
theorem decOpen {N start : ℕ} (mem : ℕ → UInt8) (sched : List ℕ) (hN : 0 < N)
    (hbelow : start + 2 * N ≤ 4294967296) :
    RingInv N start (vpuDecOpenRing start N mem sched) [] [] := by
  refine ⟨rfl, rfl, rfl, ?_, hbelow, ?_, ?_, ?_, rfl, ?_⟩
  · show u32 ((start : ℤ) + N) = start + N
    exact u32_eq (by omega) (by omega)
  · simp [vpuDecOpenRing]
  · simpa [vpuDecOpenRing] using Holds.empty mem hN
  · simp [vpuDecOpenRing, Nat.mod_eq_of_lt hN]
  · intro size hmem
    cases hmem

end RingInv

end Lib
end ToonVpu
