import ToonVpu.Stream.H264Unit
import ToonVpu.Stream.RtpMemory

/-!
# RtpSafety — no packet makes an RTP handler leave its buffers

Whatever arrives, in whatever state earlier packets left the receiver: the handlers of `RtpMemory`
compute what their counterparts without accesses compute, each access stays inside its buffer, and
copies to the ring touch free bytes only.  The lengths that bound the copies, `fu_len` and `au_len`,
are kept in bounds by every packet.
-/

namespace ToonVpu
namespace Stream
namespace Memory

open Foundation
open Foundation.Logged
open Lib

/-! ## Pointers -/

/-- There are `len` bytes at the pointer, in a buffer that is no longer than it should be. -/
structure Ptr.Valid (pktLen spsppsLen : ℕ) (p : Ptr) (len : ℕ) : Prop where
  inside : p.pos + len ≤ p.memory.length
  sized : p.memory.length ≤ p.region.size pktLen spsppsLen

section Pointers

variable {n m : ℕ} {p : Ptr} {len : ℕ}

theorem byteAt_drop (xs : List UInt8) (i j : ℕ) : byteAt (xs.drop i) j = byteAt xs (i + j) := by
  unfold byteAt
  rw [List.getD_eq_getElem?_getD, List.getD_eq_getElem?_getD, List.getElem?_drop]

theorem byteAt_eq_of_drop_take {xs : List UInt8} {i : ℕ} (pos : ℕ) (h : i < len) :
    byteAt ((xs.drop pos).take len) i = byteAt xs (pos + i) := by
  unfold byteAt
  rw [List.getD_eq_getElem?_getD, List.getD_eq_getElem?_getD, List.getElem?_take, if_pos h,
    List.getElem?_drop]

namespace Ptr.Valid

theorem length (h : p.Valid n m len) : (p.bytes len).length = len := by
  have hin := h.inside
  simp only [Ptr.bytes, List.length_take, List.length_drop]
  omega

theorem read (h : p.Valid n m len) : Access.Ok n m (.read p.region p.pos len) :=
  h.inside.trans h.sized

/-- Reading a byte. -/
theorem get (h : p.Valid n m len) {i : ℕ} (hi : i < len) :
    Yields (Access.Ok n m) (p.get i) (byteAt (p.bytes len) i) := by
  have hin := h.inside
  have hsize := h.sized
  refine ⟨(byteAt_eq_of_drop_take p.pos hi).symm, ?_⟩
  intro e he
  obtain rfl := List.mem_singleton.1 he
  show p.pos + i + 1 ≤ _
  omega

/-- A part of the bytes. -/
theorem part (h : p.Valid n m len) {k len' : ℕ} (hle : k + len' ≤ len) :
    (p.add k).Valid n m len' ∧ (p.add k).bytes len' = ((p.bytes len).drop k).take len' := by
  have hin := h.inside
  refine ⟨⟨?_, h.sized⟩, ?_⟩
  · show p.pos + k + len' ≤ p.memory.length
    omega
  · show (p.memory.drop (p.pos + k)).take len' = (((p.memory.drop p.pos).take len).drop k).take len'
    rw [List.drop_take, List.take_take, List.drop_drop, Nat.min_eq_left (by omega)]

/-- All the bytes from one of them on. -/
theorem rest (h : p.Valid n m len) {k : ℕ} (hle : k ≤ len) :
    (p.add k).Valid n m (len - k) ∧ (p.add k).bytes (len - k) = (p.bytes len).drop k := by
  have hsum : k + (len - k) ≤ len := by omega
  obtain ⟨hvalid, hbytes⟩ := h.part hsum
  refine ⟨hvalid, hbytes.trans ?_⟩
  rw [List.take_of_length_le]
  rw [List.length_drop, h.length]

end Ptr.Valid

theorem startCodePtr_valid (n m : ℕ) : startCodePtr.Valid n m 4 :=
  ⟨Nat.le_refl 4, Nat.le_refl 4⟩

end Pointers

/-! ## Assembling in `au` -/

/-- The lengths of the buffered handler are those of its buffers at most. -/
structure BufferInv (st : H264RtpState) : Prop where
  auLen : st.auLen ≤ auSize
  fuLen : st.fuLen ≤ st.fu.length
  fu : st.fu.length ≤ fuSize

section Buffered

variable {n m : ℕ} {p : Ptr} {len : ℕ} {st : H264RtpState}

theorem copyToAu_yields (h : p.Valid n m len) (hroom : st.auLen + len ≤ auSize) :
    Yields (Access.Ok n m) (copyToAu st p len) (st.pushAu (p.bytes len)) := by
  refine ⟨rfl, ?_⟩
  intro e he
  rcases List.mem_cons.1 he with rfl | he
  · exact h.read
  · obtain rfl := List.mem_singleton.1 he
    exact ⟨rfl, hroom⟩

theorem rtpAuAppend_yields (h : p.Valid n m len) :
    Yields (Access.Ok n m) (rtpAuAppend st p len) (Stream.rtpAuAppend st (p.bytes len)) := by
  have hsc : startCode.length = 4 := rfl
  unfold rtpAuAppend Stream.rtpAuAppend
  rw [h.length]
  refine .ite (fun _ => .pure _) fun hroom => ?_
  rw [not_or, Nat.not_lt, hsc] at hroom
  refine .bind (copyToAu_yields (startCodePtr_valid n m) (by omega)) ?_
  exact copyToAu_yields h (by show st.auLen + 4 + len ≤ _; exact hroom.2)

theorem rtpAuAppendBytes_yields (h : p.Valid n m len) :
    Yields (Access.Ok n m) (rtpAuAppendBytes st p len)
      (Stream.rtpAuAppendBytes st (p.bytes len)) := by
  unfold rtpAuAppendBytes Stream.rtpAuAppendBytes
  rw [h.length]
  refine .ite (fun _ => .pure _) fun _ => .ite (fun _ => .pure _) fun hroom => ?_
  exact copyToAu_yields h (by omega)

theorem BufferInv.flags {st' : H264RtpState} (h : BufferInv st) (hau : st'.auLen ≤ auSize)
    (hfu : st'.fu = st.fu) (hlen : st'.fuLen ≤ st.fuLen) : BufferInv st' := by
  have hle := h.fuLen
  refine ⟨hau, ?_, by rw [hfu]; exact h.fu⟩
  rw [hfu]
  omega

theorem BufferInv.append (h : BufferInv st) (nal : List UInt8) :
    BufferInv (Stream.rtpAuAppend st nal) := by
  have hsc : startCode.length = 4 := rfl
  unfold Stream.rtpAuAppend
  split
  · exact h.flags h.auLen rfl (Nat.le_refl _)
  · rename_i hroom
    refine h.flags ?_ rfl (Nat.le_refl _)
    simp only [H264RtpState.pushAu, hsc] at hroom ⊢
    omega

theorem BufferInv.appendBytes (h : BufferInv st) (p : List UInt8) :
    BufferInv (Stream.rtpAuAppendBytes st p) := by
  unfold Stream.rtpAuAppendBytes
  split
  · exact h
  split
  · exact h.flags h.auLen rfl (Nat.le_refl _)
  · rename_i hroom
    refine h.flags ?_ rfl (Nat.le_refl _)
    simp only [H264RtpState.pushAu]
    omega

theorem BufferInv.flush (h : BufferInv st) (out : List (List UInt8)) :
    BufferInv (Stream.rtpAuFlush out st).2 := by
  have hreset : ∀ st', st'.fu = st.fu → st'.fuLen = st.fuLen → BufferInv (rtpAuReset st') :=
    fun st' hfu hlen => h.flags (Nat.zero_le _) hfu (Nat.le_of_eq hlen)
  unfold Stream.rtpAuFlush
  split
  · simp only
    split
    · split <;> exact hreset _ rfl rfl
    · exact hreset _ rfl rfl
  · exact hreset _ rfl rfl

theorem rtpAuFlush_yields (h : BufferInv st) (out : List (List UInt8)) :
    Yields (Access.Ok n m) (rtpAuFlush out st) (Stream.bufferedStore.flush out st) := by
  have hflush : Stream.bufferedStore.flush out st =
      ((Stream.rtpAuFlush out st).1, (Stream.rtpAuFlush out st).2, 0) := rfl
  rw [hflush]
  unfold rtpAuFlush
  simp only
  split
  · refine ⟨rfl, ?_⟩
    intro e he
    obtain rfl := List.mem_singleton.1 he
    show 0 + st.auLen ≤ auSize
    rw [Nat.zero_add]
    exact h.auLen
  · exact .pure _

/-! Fragments are joined in `fu`. -/

variable {spspps pkt : Ptr} {spsppsLen : ℕ}

theorem fuHdr_eq (payload : List UInt8) :
    UInt8.ofNat (byteAt payload 0 / 32 * 32 + byteAt payload 1 % 32) = fuHdr payload := rfl

theorem toNat_fuHdr (payload : List UInt8) : (fuHdr payload).toNat % 32 = fuType payload :=
  nalType_fuHdr payload

theorem fuBeginBuffered_yields (h : spspps.Valid n m spsppsLen) (payload : List UInt8) :
    Yields (Access.Ok n m) (fuBeginBuffered spspps spsppsLen st (fuHdr payload))
      (Stream.fuBeginBuffered (spspps.bytes spsppsLen) st payload) := by
  unfold fuBeginBuffered Stream.fuBeginBuffered
  rw [toNat_fuHdr, h.length]
  refine .bind (a := { st with fu := [fuHdr payload], fuLen := 1 }) ⟨rfl, ?_⟩ ?_
  · intro e he
    obtain rfl := List.mem_singleton.1 he
    exact ⟨rfl, show 0 + 1 ≤ fuSize by decide⟩
  · exact .bind (.ite (fun _ => rtpAuAppendBytes_yields h) fun _ => .pure _) (.pure _)

theorem BufferInv.fuBegin (h : BufferInv st) (spspps payload : List UInt8) :
    BufferInv (Stream.fuBeginBuffered spspps st payload) := by
  have hfirst : BufferInv { st with fu := [fuHdr payload], fuLen := 1 } :=
    ⟨h.auLen, Nat.le_refl 1, by simp [fuSize]⟩
  have hflag : BufferInv (if fuType payload = 5 then
      { { st with fu := [fuHdr payload], fuLen := 1 } with auHasIdr := true }
      else { st with fu := [fuHdr payload], fuLen := 1 }) := by
    split
    · exact hfirst.flags hfirst.auLen rfl (Nat.le_refl _)
    · exact hfirst
  unfold Stream.fuBeginBuffered
  simp only
  split
  · exact (hflag.appendBytes spspps).flags (hflag.appendBytes spspps).auLen rfl (Nat.le_refl _)
  · exact hflag.flags hflag.auLen rfl (Nat.le_refl _)

/-- The state after the copy of a fragment to `fu`. -/
theorem BufferInv.copyToFu (h : BufferInv st) {data : List UInt8} {k : ℕ} (hlen : data.length = k)
    (hroom : st.fuLen + k ≤ fuSize) :
    BufferInv { st with fu := st.fu.take st.fuLen ++ data, fuLen := st.fuLen + k } := by
  have hle := h.fuLen
  have hfu : (st.fu.take st.fuLen ++ data).length = st.fuLen + k := by
    rw [List.length_append, List.length_take, hlen, Nat.min_eq_left hle]
  exact ⟨h.auLen, by rw [hfu], by rw [hfu]; exact hroom⟩

theorem copyToFu_yields (h : p.Valid n m len) (hroom : st.fuLen + len ≤ fuSize) :
    Yields (Access.Ok n m) (Memory.copyToFu st p len)
      { st with fu := st.fu.take st.fuLen ++ p.bytes len, fuLen := st.fuLen + len } := by
  refine ⟨rfl, ?_⟩
  intro e he
  rcases List.mem_cons.1 he with rfl | he
  · exact h.read
  · obtain rfl := List.mem_singleton.1 he
    exact ⟨rfl, hroom⟩

theorem fuJoinBuffered_yields (hinv : BufferInv st) (h : pkt.Valid n m len) (hlen : 2 ≤ len) :
    Yields (Access.Ok n m)
        (fuJoinBuffered st (fuEnd (pkt.bytes len)) pkt len)
        (Stream.fuJoinBuffered st (pkt.bytes len)) ∧
      BufferInv (Stream.fuJoinBuffered st (pkt.bytes len)).1 := by
  obtain ⟨hdata, hbytes⟩ := h.rest hlen
  unfold fuJoinBuffered Stream.fuJoinBuffered
  rw [h.length]
  by_cases hdrop : st.fuActive = false ∨ fuSize < st.fuLen + (len - 2)
  · rw [if_pos hdrop, if_pos hdrop]
    exact ⟨.pure _, hinv.flags hinv.auLen rfl (Nat.le_refl _)⟩
  rw [if_neg hdrop, if_neg hdrop]
  rw [not_or, Nat.not_lt] at hdrop
  have hcopy := copyToFu_yields hdata hdrop.2
  have hinv' := hinv.copyToFu hdata.length hdrop.2
  rw [hbytes] at hcopy hinv'
  generalize hst₁ : ({ st with
    fu := st.fu.take st.fuLen ++ (pkt.bytes len).drop 2
    fuLen := st.fuLen + (len - 2) } : H264RtpState) = st₁ at hcopy hinv'
  have hptr : (⟨.fu, st₁.fu, 0⟩ : Ptr).Valid n m st₁.fuLen := by
    refine ⟨?_, hinv'.fu⟩
    rw [Nat.zero_add]
    exact hinv'.fuLen
  have happend : Yields (Access.Ok n m) (rtpAuAppend st₁ ⟨.fu, st₁.fu, 0⟩ st₁.fuLen)
      (Stream.rtpAuAppend st₁ (st₁.fu.take st₁.fuLen)) := rtpAuAppend_yields hptr
  have hafter := hinv'.append (st₁.fu.take st₁.fuLen)
  constructor
  · refine .bind hcopy ?_
    cases fuEnd (pkt.bytes len) with
    | true => exact .bind happend (.pure _)
    | false => exact .pure _
  · cases fuEnd (pkt.bytes len) with
    | true =>
      exact hafter.flags hafter.auLen rfl (Nat.zero_le _)
    | false => exact hinv'

theorem fuABuffered_yields (hinv : BufferInv st) (hspspps : spspps.Valid n m spsppsLen)
    (h : pkt.Valid n m len) (hlen : 2 ≤ len) (out : List (List UInt8)) (seqGap : Bool) :
    Yields (Access.Ok n m) (fuABuffered spspps spsppsLen out st seqGap pkt len)
        (Stream.fuABuffered (spspps.bytes spsppsLen) out st seqGap (pkt.bytes len)) ∧
      BufferInv (Stream.fuABuffered (spspps.bytes spsppsLen) out st seqGap
        (pkt.bytes len)).2.1 := by
  generalize hst₁ : (if fuStart (pkt.bytes len) then
    Stream.fuBeginBuffered (spspps.bytes spsppsLen) st (pkt.bytes len) else st) = st₁
  have hinv₁ : BufferInv st₁ := by
    rw [← hst₁]
    split
    · exact hinv.fuBegin _ _
    · exact hinv
  obtain ⟨hjoin, hjoined⟩ := fuJoinBuffered_yields hinv₁ h hlen
  have hbegin : Yields (Access.Ok n m)
      (if 128 ≤ byteAt (pkt.bytes len) 1 then
        fuBeginBuffered spspps spsppsLen st (fuHdr (pkt.bytes len)) else pure st) st₁ := by
    rw [← hst₁]
    unfold fuStart
    simp only [decide_eq_true_eq]
    exact .ite (fun _ => fuBeginBuffered_yields hspspps _) fun _ => .pure _
  unfold fuABuffered Stream.fuABuffered
  constructor
  · refine .bind (h.get (i := 0) (by omega)) (.bind (h.get (i := 1) (by omega)) ?_)
    simp only [fuHdr_eq, toNat_fuHdr]
    refine .ite (fun _ => .pure _) fun _ => ?_
    simp only [hst₁]
    exact .bind hbegin (.bind hjoin (.pure _))
  · split
    · exact hinv
    · simp only [hst₁]
      exact hjoined

end Buffered

/-! ## Assembling in the ring -/

/-- The byte `j` places behind the write pointer is free, with `u` unread bytes before it. -/
theorem free_behind {wr rd u j x : ℕ} (hrd : rd < streamBufSize)
    (hwr : wr = (rd + u) % streamBufSize) (hroom : u + j + 1 < streamBufSize)
    (hx : x = (wr + j) % streamBufSize) : Free wr rd x := by
  unfold Free
  simp only [streamBufSize] at *
  omega

section Direct

variable {n m : ℕ} {p : Ptr} {len : ℕ} {bs : BitstreamMem} {d : Decoder} {st : H264RtpState}
  {b : List UInt8}

/-- A copy that starts at the first free byte and does not cross the end of the ring. -/
theorem copyToRing_yields {queue staged : List UInt8} {pos : ℕ}
    (hring : RingInv streamBufSize bs.phyAddr d queue staged) (h : p.Valid n m len)
    (hpos : pos = (d.streamWrPtr - bs.phyAddr + staged.length) % streamBufSize)
    (hend : pos + len ≤ streamBufSize)
    (hroom : queue.length + staged.length + len < streamBufSize) :
    Yields (Access.Ok n m) (copyToRing d pos p len) (d.memcpy pos (p.bytes len)) := by
  refine ⟨rfl, ?_⟩
  intro e he
  rcases List.mem_cons.1 he with rfl | he
  · exact h.read
  · obtain rfl := List.mem_singleton.1 he
    refine ⟨hend, ?_⟩
    intro x hle hlt
    rw [hring.startAddr]
    have hwr : d.streamWrPtr - bs.phyAddr =
        (d.rdPtr - bs.phyAddr + queue.length) % streamBufSize := by
      rw [hring.wrPtr_eq, Nat.add_sub_cancel_left]
    refine free_behind hring.holds.rd_lt hwr
      (show queue.length + (staged.length + (x - pos)) + 1 < streamBufSize by omega) ?_
    -- The copy does not wrap, so offset and distance go together.
    rw [← Nat.add_assoc, ← Nat.mod_add_mod, ← hpos, Nat.mod_eq_of_lt (by omega)]
    omega

/-- `rtp_direct_append`: a copy up to the end of the ring, and one from its start if need be. -/
theorem rtpDirectAppend_yields (hs : Staged bs d st b) (h : p.Valid n m len) :
    Yields (Access.Ok n m) (rtpDirectAppend d st p len)
      (Stream.rtpDirectAppend d st (p.bytes len)) := by
  obtain ⟨queue, hring, hlen⟩ := hs
  unfold rtpDirectAppend Stream.rtpDirectAppend
  rw [h.length]
  refine .ite (fun _ => .pure _) fun hzero => ?_
  obtain ⟨k, hk, hget⟩ := hring.getBitstreamBuffer
  simp only [hget, ne_eq, not_true_eq_false, if_false]
  refine .ite (fun _ => .pure _) fun hfull => ?_
  have hstart : d.tick.streamBufStartAddr = bs.phyAddr := hk.startAddr
  generalize hpos : (d.streamWrPtr - d.tick.streamBufStartAddr + st.auLen) % streamBufSize = pos
  have hpos' : pos = (d.tick.streamWrPtr - bs.phyAddr + b.length) % streamBufSize := by
    rw [← hpos, hstart, hlen, Decoder.tick_wrPtr]
  have hlt : pos < streamBufSize := hpos ▸ Nat.mod_lt _ (by decide)
  generalize hfirst : min (streamBufSize - pos) len = first
  have hle : 0 + first ≤ len := by omega
  obtain ⟨hpart, hpartBytes⟩ := h.part hle
  rw [List.drop_zero] at hpartBytes
  have hcopy := copyToRing_yields hk hpart hpos' (by omega) (by omega)
  have hsame : p.add 0 = p := rfl
  rw [hpartBytes, hsame] at hcopy
  have hfirstLen : ((p.bytes len).take first).length = first := by
    rw [List.length_take, h.length]
    omega
  refine .bind hcopy ?_
  by_cases hcut : first < len
  · -- The first copy ended at the end of the ring.
    have hfill : pos + first = streamBufSize := by omega
    obtain ⟨k', hk'⟩ := hk.memcpy pos ((p.bytes len).take first) hpos' (by omega) (by omega)
    have hdrop : ((queue.drop k).drop k').length ≤ (queue.drop k).length := by
      rw [List.length_drop]
      exact Nat.sub_le _ _
    have hzero' : 0 = ((d.tick.memcpy pos ((p.bytes len).take first)).streamWrPtr - bs.phyAddr +
        (b ++ (p.bytes len).take first).length) % streamBufSize := by
      rw [Decoder.memcpy_wrPtr, List.length_append, hfirstLen, ← Nat.add_assoc,
        ← Nat.mod_add_mod, ← hpos', hfill, Nat.mod_self]
    obtain ⟨hrest, hrestBytes⟩ := h.rest (Nat.le_of_lt hcut)
    have hsecond := copyToRing_yields hk' hrest hzero' (by omega)
      (by rw [List.length_append, hfirstLen]; omega)
    rw [hrestBytes] at hsecond
    rw [if_pos hcut, if_pos hcut]
    exact .bind hsecond (.pure _)
  · rw [if_neg hcut, if_neg hcut]
    exact .bind (.pure _) (.pure _)

theorem rtpDirectAppendNal_yields (hs : Staged bs d st b) (h : p.Valid n m len) :
    Yields (Access.Ok n m) (rtpDirectAppendNal d st p len)
      (Stream.rtpDirectAppendNal d st (p.bytes len)) := by
  have hcode := rtpDirectAppend_yields hs (startCodePtr_valid n m)
  have hbytes : startCodePtr.bytes 4 = startCode := rfl
  rw [hbytes] at hcode
  unfold rtpDirectAppendNal Stream.rtpDirectAppendNal
  refine .bind hcode ?_
  obtain ⟨d', -, -, ⟨heq, hst⟩ | ⟨heq, hst, -⟩⟩ := rtpDirectAppend_spec hs startCode
  · rw [heq]
    exact rtpDirectAppend_yields hst h
  · rw [heq]
    exact .pure _

/-! Fragments are staged as they come. -/

variable {spspps pkt : Ptr} {spsppsLen : ℕ}

theorem fuBeginDirect_yields (hs : Staged bs d st b) (h : spspps.Valid n m spsppsLen)
    (payload : List UInt8) :
    Yields (Access.Ok n m) (fuBeginDirect spspps spsppsLen d st (fuHdr payload))
      (Stream.fuBeginDirect (spspps.bytes spsppsLen) d st payload) := by
  have hhdr : (⟨.header, [fuHdr payload], 0⟩ : Ptr).Valid n m 1 :=
    ⟨Nat.le_refl 1, Nat.le_refl 1⟩
  generalize hst₁ : (if fuType payload = 5 then { st with auHasIdr := true } else st) = st₁
  have hs₁ : Staged bs d st₁ b := by
    rw [← hst₁]
    split <;> exact hs.setFlags rfl
  unfold fuBeginDirect Stream.fuBeginDirect
  simp only [toNat_fuHdr, hst₁, h.length]
  by_cases hpend : fuType payload = 5 ∧ 0 < spsppsLen
  · rw [if_pos hpend, if_pos hpend]
    refine .bind (rtpDirectAppend_yields hs₁ h) ?_
    obtain ⟨d', -, -, ⟨heq, hst⟩ | ⟨heq, hst, -⟩⟩ :=
      rtpDirectAppend_spec hs₁ (spspps.bytes spsppsLen) <;> rw [heq] <;>
      exact .bind (rtpDirectAppendNal_yields hst hhdr) (.pure _)
  · rw [if_neg hpend, if_neg hpend]
    exact .bind (.pure _) (.bind (rtpDirectAppendNal_yields hs₁ hhdr) (.pure _))

theorem fuJoinDirect_yields (hs : Staged bs d st b) (h : pkt.Valid n m len) (hlen : 2 ≤ len) :
    Yields (Access.Ok n m) (fuJoinDirect d st (fuEnd (pkt.bytes len)) pkt len)
      (Stream.fuJoinDirect d st (pkt.bytes len)) := by
  obtain ⟨hdata, hbytes⟩ := h.rest hlen
  have happend := rtpDirectAppend_yields hs hdata
  rw [hbytes] at happend
  unfold fuJoinDirect Stream.fuJoinDirect
  refine .ite (fun _ => .pure _) fun _ => .bind happend ?_
  cases fuEnd (pkt.bytes len) <;> exact .pure _

theorem fuADirect_yields (hs : Staged bs d st b) (hspspps : spspps.Valid n m spsppsLen)
    (h : pkt.Valid n m len) (hlen : 2 ≤ len) (seqGap : Bool) :
    Yields (Access.Ok n m) (fuADirect spspps spsppsLen d st seqGap pkt len)
      (Stream.fuADirect (spspps.bytes spsppsLen) d st seqGap (pkt.bytes len)) := by
  generalize hr : (if fuStart (pkt.bytes len) then
    Stream.fuBeginDirect (spspps.bytes spsppsLen) d st (pkt.bytes len) else (d, st)) = r
  have hbegin : Yields (Access.Ok n m)
      (if 128 ≤ byteAt (pkt.bytes len) 1 then
        fuBeginDirect spspps spsppsLen d st (fuHdr (pkt.bytes len)) else pure (d, st)) r := by
    rw [← hr]
    unfold fuStart
    simp only [decide_eq_true_eq]
    exact .ite (fun _ => fuBeginDirect_yields hs hspspps _) fun _ => .pure _
  have hs₁ : ∃ b, Staged bs r.1 r.2 b := by
    rw [← hr]
    split
    · exact (fuBeginDirect_grows _ hs _).stays.2.2.2
    · exact ⟨b, hs⟩
  obtain ⟨b₁, hb₁⟩ := hs₁
  unfold fuADirect Stream.fuADirect
  refine .bind (h.get (i := 0) (by omega)) (.bind (h.get (i := 1) (by omega)) ?_)
  simp only [fuHdr_eq, toNat_fuHdr, hr]
  exact .ite (fun _ => .pure _) fun _ =>
    .bind hbegin (.bind (fuJoinDirect_yields hb₁ h hlen) (.pure _))

end Direct

/-! ## The H.264 handlers -/

def spsppsPtr (spspps : List UInt8) : Ptr := ⟨.spspps, spspps, 0⟩

theorem spsppsPtr_valid (n : ℕ) (spspps : List UInt8) :
    (spsppsPtr spspps).Valid n spspps.length spspps.length :=
  ⟨by simp [spsppsPtr], Nat.le_refl _⟩

theorem spsppsPtr_bytes (spspps : List UInt8) :
    (spsppsPtr spspps).bytes spspps.length = spspps := List.take_length

/-- The operations of a store make safe accesses and keep the invariant `I`. -/
structure StoreSafe {α : Type} (T : Store α) (S : AuStore α) (spspps : List UInt8)
    (I : α → H264RtpState → Prop) (n : ℕ) : Prop where
  flag : ∀ {s st}, I s st → I s { st with auHasIdr := true }
  appendBytes : ∀ {s st p len}, I s st → p.Valid n spspps.length len →
    Yields (Access.Ok n spspps.length) (T.appendBytes s st p len)
        (S.appendBytes s st (p.bytes len)) ∧
      I (S.appendBytes s st (p.bytes len)).1 (S.appendBytes s st (p.bytes len)).2
  appendNal : ∀ {s st p len}, I s st → p.Valid n spspps.length len →
    Yields (Access.Ok n spspps.length) (T.appendNal s st p len) (S.appendNal s st (p.bytes len)) ∧
      I (S.appendNal s st (p.bytes len)).1 (S.appendNal s st (p.bytes len)).2
  fuA : ∀ {s st p len} (seqGap : Bool), I s st → p.Valid n spspps.length len → 2 ≤ len →
    Yields (Access.Ok n spspps.length)
        (T.fuA (spsppsPtr spspps) spspps.length s st seqGap p len)
        (S.fuA spspps s st seqGap (p.bytes len)) ∧
      I (S.fuA spspps s st seqGap (p.bytes len)).1 (S.fuA spspps s st seqGap (p.bytes len)).2.1
  flush : ∀ {s st}, I s st →
    Yields (Access.Ok n spspps.length) (T.flush s st) (S.flush s st) ∧
      I (S.flush s st).1 (S.flush s st).2.1

section Body

variable {α : Type} {T : Store α} {S : AuStore α} {spspps : List UInt8}
  {I : α → H264RtpState → Prop} {n : ℕ} (safe : StoreSafe T S spspps I n)

include safe

theorem h264Nal_yields {x : α × H264RtpState} {p : Ptr} {len : ℕ} (hinv : I x.1 x.2)
    (h : p.Valid n spspps.length len) (hpos : 0 < len) :
    Yields (Access.Ok n spspps.length) (h264Nal T (spsppsPtr spspps) spspps.length x p len)
        (Stream.h264Nal S spspps x (p.bytes len)) ∧
      I (Stream.h264Nal S spspps x (p.bytes len)).1
        (Stream.h264Nal S spspps x (p.bytes len)).2 := by
  obtain ⟨s, st⟩ := x
  have htype : byteAt (p.bytes len) 0 % 32 = nalType (p.bytes len) := rfl
  generalize hst₁ : (if nalType (p.bytes len) = 5 then { st with auHasIdr := true }
    else st) = st₁
  have hinv₁ : I s st₁ := by
    rw [← hst₁]
    split
    · exact safe.flag hinv
    · exact hinv
  have hpend := safe.appendBytes hinv₁ (spsppsPtr_valid n spspps)
  rw [spsppsPtr_bytes] at hpend
  generalize hr : (if nalType (p.bytes len) = 5 ∧ 0 < spspps.length then
    S.appendBytes s st₁ spspps else (s, st₁)) = r
  have hfirst : Yields (Access.Ok n spspps.length)
      (if nalType (p.bytes len) = 5 ∧ 0 < spspps.length then
        T.appendBytes s st₁ (spsppsPtr spspps) spspps.length else pure (s, st₁)) r := by
    rw [← hr]
    exact .ite (fun _ => hpend.1) fun _ => .pure _
  have hinv₂ : I r.1 r.2 := by
    rw [← hr]
    split
    · exact hpend.2
    · exact hinv₁
  obtain ⟨hnal, hinv₃⟩ := safe.appendNal hinv₂ h
  unfold h264Nal Stream.h264Nal
  constructor
  · refine .bind (h.get hpos) ?_
    simp only [htype, hst₁, hr]
    exact .ite (fun _ => .pure _) fun _ => .bind hfirst hnal
  · simp only [hst₁, hr]
    split
    · exact hinv
    · exact hinv₃

/-- The loop over a STAP-A packet, from any place on. -/
theorem stapLoop_yields {p : Ptr} {len : ℕ} (h : p.Valid n spspps.length len) (fuel : ℕ) :
    ∀ (i : ℕ) {x : α × H264RtpState}, I x.1 x.2 →
      Yields (Access.Ok n spspps.length)
          (stapLoop T (spsppsPtr spspps) spspps.length p len fuel i x)
          ((stapNals fuel ((p.bytes len).drop i)).foldl (Stream.h264Nal S spspps) x) ∧
        I ((stapNals fuel ((p.bytes len).drop i)).foldl (Stream.h264Nal S spspps) x).1
          ((stapNals fuel ((p.bytes len).drop i)).foldl (Stream.h264Nal S spspps) x).2 := by
  induction fuel with
  | zero =>
    intro i x hinv
    exact ⟨.pure _, hinv⟩
  | succ fuel ih =>
    intro i x hinv
    have hrest : ((p.bytes len).drop i).length = len - i := by rw [List.length_drop, h.length]
    unfold stapLoop stapNals
    by_cases hend : len < i + 2
    · have hend' : ((p.bytes len).drop i).length < 2 := by omega
      rw [if_pos hend, if_pos hend']
      exact ⟨.pure _, hinv⟩
    have hgo : ¬ ((p.bytes len).drop i).length < 2 := by omega
    rw [if_neg hend, if_neg hgo]
    simp only [byteAt_drop, Nat.add_zero, List.drop_drop]
    generalize hsize : byteAt (p.bytes len) i * 256 + byteAt (p.bytes len) (i + 1) = size
    have hlen : ((p.bytes len).drop (i + 2)).length = len - (i + 2) := by
      rw [List.length_drop, h.length]
    by_cases hstop : size = 0 ∨ len < i + 2 + size
    · have hstop' : size = 0 ∨ ((p.bytes len).drop (i + 2)).length < size := by omega
      rw [if_pos hstop']
      refine ⟨.bind (h.get (by omega)) (.bind (h.get (by omega)) ?_), hinv⟩
      simp only [hsize, if_pos hstop]
      exact .pure _
    · have hstop' : ¬ (size = 0 ∨ ((p.bytes len).drop (i + 2)).length < size) := by omega
      rw [not_or, Nat.not_lt] at hstop
      obtain ⟨hvalid, hbytes⟩ := h.part hstop.2
      obtain ⟨hnal, hinv'⟩ := h264Nal_yields safe hinv hvalid (Nat.pos_of_ne_zero hstop.1)
      rw [hbytes] at hnal hinv'
      obtain ⟨hloop, hinv''⟩ := ih (i + 2 + size) hinv'
      rw [if_neg hstop', List.foldl_cons]
      refine ⟨.bind (h.get (by omega)) (.bind (h.get (by omega)) ?_), hinv''⟩
      simp only [hsize, if_neg (not_or.2 ⟨hstop.1, Nat.not_lt.2 hstop.2⟩)]
      exact .bind hnal hloop

theorem maybeFlush_yields (marker : Bool) {x : α × H264RtpState} (hinv : I x.1 x.2) :
    Yields (Access.Ok n spspps.length) (maybeFlush T marker x) (Stream.maybeFlush S marker x) ∧
      I (Stream.maybeFlush S marker x).1 (Stream.maybeFlush S marker x).2.1 := by
  unfold maybeFlush Stream.maybeFlush
  cases marker with
  | true => exact safe.flush hinv
  | false => exact ⟨.pure _, hinv⟩

theorem h264Body_yields {s : α} {st : H264RtpState} (seqGap marker : Bool) {p : Ptr} {len : ℕ}
    (hinv : I s st) (h : p.Valid n spspps.length len) (hpos : 0 < len) :
    Yields (Access.Ok n spspps.length)
        (h264Body T (spsppsPtr spspps) spspps.length s st seqGap marker p len)
        (Stream.h264Body S spspps s st seqGap marker (p.bytes len)) ∧
      I (Stream.h264Body S spspps s st seqGap marker (p.bytes len)).1
        (Stream.h264Body S spspps s st seqGap marker (p.bytes len)).2.1 := by
  have htype : byteAt (p.bytes len) 0 % 32 = nalType (p.bytes len) := rfl
  have hget := h.get hpos
  unfold h264Body
  -- A NAL unit of its own, a STAP-A, a fragment, or a type that is passed over.
  by_cases hone : 1 ≤ nalType (p.bytes len) ∧ nalType (p.bytes len) ≤ 23
  · obtain ⟨hnal, hinv'⟩ := h264Nal_yields safe (x := (s, st)) hinv h hpos
    obtain ⟨hflush, hinv''⟩ := maybeFlush_yields safe marker hinv'
    rw [Stream.h264Body, if_pos hone]
    refine ⟨.bind hget ?_, hinv''⟩
    simp only [htype, if_pos hone]
    exact .bind hnal hflush
  by_cases hstap : nalType (p.bytes len) = 24
  · obtain ⟨hloop, hinv'⟩ := stapLoop_yields safe h len 1 (x := (s, st)) hinv
    obtain ⟨hflush, hinv''⟩ := maybeFlush_yields safe marker hinv'
    rw [Stream.h264Body, if_neg hone, if_pos hstap, h.length]
    refine ⟨.bind hget ?_, hinv''⟩
    simp only [htype, if_neg hone, if_pos hstap]
    exact .bind hloop hflush
  by_cases hfu : nalType (p.bytes len) = 28 ∧ 2 ≤ len
  · obtain ⟨hfuA, hinv'⟩ := safe.fuA seqGap hinv h hfu.2
    have hfu' : nalType (p.bytes len) = 28 ∧ 2 ≤ (p.bytes len).length := by rwa [h.length]
    rw [Stream.h264Body, if_neg hone, if_neg hstap, if_pos hfu']
    generalize S.fuA spspps s st seqGap (p.bytes len) = r at hfuA hinv'
    obtain ⟨s', st', goOn⟩ := r
    obtain ⟨hflush, hinv''⟩ := maybeFlush_yields safe marker (x := (s', st')) hinv'
    constructor
    · refine .bind hget ?_
      simp only [htype, if_neg hone, if_neg hstap, if_pos hfu]
      refine .bind hfuA ?_
      cases goOn with
      | true => exact hflush
      | false => exact .pure _
    · cases goOn with
      | true => exact hinv''
      | false => exact hinv'
  · obtain ⟨hflush, hinv'⟩ := maybeFlush_yields safe marker (x := (s, st)) hinv
    have hfu' : ¬ (nalType (p.bytes len) = 28 ∧ 2 ≤ (p.bytes len).length) := by rwa [h.length]
    rw [Stream.h264Body, if_neg hone, if_neg hstap, if_neg hfu']
    refine ⟨.bind hget ?_, hinv'⟩
    simp only [htype, if_neg hone, if_neg hstap, if_neg hfu]
    exact hflush

end Body

/-! ## The RTP header -/

section Header

variable {n m : ℕ} {p : Ptr} {len : ℕ}

theorem rtpH264SeqGap_yields (h : p.Valid n m len) (st : H264RtpState) :
    Yields (Access.Ok n m) (rtpH264SeqGap st p len) (Stream.rtpH264SeqGap st (p.bytes len)) := by
  unfold rtpH264SeqGap Stream.rtpH264SeqGap
  rw [h.length]
  refine .ite (fun _ => .pure _) fun hlen => ?_
  exact .bind (h.get (by omega)) (.bind (h.get (by omega)) (.pure _))

theorem rtpTimestamp_yields (h : p.Valid n m len) (hlen : 12 ≤ len) :
    Yields (Access.Ok n m) (rtpTimestamp p) (rtpTs (p.bytes len)) :=
  .bind (h.get (by omega)) (.bind (h.get (by omega)) (.bind (h.get (by omega))
    (.bind (h.get (by omega)) (.pure _))))

/-- The offset is where the payload starts, and there is a payload. -/
theorem rtpPayloadOff_yields (h : p.Valid n m len) (hlen : 12 ≤ len) :
    ∃ off, Yields (Access.Ok n m) (rtpPayloadOff p len) off ∧
      rtpPayload (p.bytes len) = off.map (p.bytes len).drop ∧ ∀ k ∈ off, k < len := by
  have hsome : ∀ k, (if len ≤ k then none else some ((p.bytes len).drop k)) =
      (if len ≤ k then none else some k).map (p.bytes len).drop := by
    intro k
    split <;> rfl
  have hlt : ∀ k, ∀ j ∈ (if len ≤ k then none else some k), j < len := by
    intro k j hj
    split at hj
    · exact absurd hj (by simp)
    · rename_i hk
      obtain rfl : k = j := by simpa using hj
      exact Nat.not_le.1 hk
  have hzero := h.get (i := 0) (by omega)
  unfold rtpPayloadOff rtpPayload
  simp only [h.length]
  generalize byteAt (p.bytes len) 0 = b₀ at hzero
  by_cases hext : b₀ / 16 % 2 = 1
  · rw [if_pos hext]
    by_cases hshort : len < 12 + b₀ % 16 * 4 + 4
    · rw [if_pos hshort]
      refine ⟨none, .bind hzero ?_, rfl, by simp⟩
      simp only [if_pos hext, if_pos hshort]
      exact .pure _
    · have hhi := h.get (i := 12 + b₀ % 16 * 4 + 2) (by omega)
      have hlo := h.get (i := 12 + b₀ % 16 * 4 + 3) (by omega)
      rw [if_neg hshort]
      refine ⟨_, .bind hzero ?_, hsome _, hlt _⟩
      simp only [if_pos hext, if_neg hshort]
      exact .bind hhi (.bind hlo (.pure _))
  · rw [if_neg hext]
    refine ⟨_, .bind hzero ?_, hsome _, hlt _⟩
    simp only [if_neg hext]
    exact .pure _

/-- A handler whose body is safe is safe. -/
theorem rtpHandle_yields {α : Type}
    {body' : α → H264RtpState → Bool → Bool → Ptr → ℕ → Prog (α × H264RtpState × ℕ)}
    {body : α → H264RtpState → Bool → Bool → List UInt8 → α × H264RtpState × ℕ}
    {I : α → H264RtpState → Prop} (pkt : List UInt8)
    (henter : ∀ {s st}, I s st → I s (rtpEnter st pkt).1)
    (hbody : ∀ {s st} (seqGap marker : Bool) {p : Ptr} {len : ℕ}, I s st →
      p.Valid pkt.length m len → 0 < len →
        Yields (Access.Ok pkt.length m) (body' s st seqGap marker p len)
            (body s st seqGap marker (p.bytes len)) ∧
          I (body s st seqGap marker (p.bytes len)).1 (body s st seqGap marker (p.bytes len)).2.1)
    {s : α} {st : H264RtpState} (hinv : I s st) :
    Yields (Access.Ok pkt.length m) (rtpHandle body' s st ⟨.packet, pkt, 0⟩ pkt.length)
        (Stream.rtpHandle body s st pkt) ∧
      I (Stream.rtpHandle body s st pkt).1 (Stream.rtpHandle body s st pkt).2.1 := by
  generalize hptr : (⟨.packet, pkt, 0⟩ : Ptr) = p
  have h : p.Valid pkt.length m pkt.length := by
    rw [← hptr]
    exact ⟨by simp, Nat.le_refl _⟩
  have hbytes : p.bytes pkt.length = pkt := by
    rw [← hptr]
    exact List.take_length
  unfold rtpHandle Stream.rtpHandle rtpWellFormed
  by_cases hshort : pkt.length < 12
  · have hbad : decide (12 ≤ pkt.length ∧ byteAt pkt 0 / 64 = 2) = false := by
      rw [decide_eq_false_iff_not]
      omega
    rw [if_pos hshort, if_pos hbad]
    exact ⟨.pure _, hinv⟩
  have hzero := h.get (i := 0) (by omega)
  have hone := h.get (i := 1) (by omega)
  have hts := rtpTimestamp_yields h (by omega)
  have hseq := rtpH264SeqGap_yields h st
  obtain ⟨off, hoff, hpayload, hlt⟩ := rtpPayloadOff_yields h (by omega)
  rw [hbytes] at hzero hone hts hseq hpayload
  rw [if_neg hshort]
  by_cases hversion : byteAt pkt 0 / 64 = 2
  · have hgood : ¬ decide (12 ≤ pkt.length ∧ byteAt pkt 0 / 64 = 2) = false := by
      simp only [decide_eq_false_iff_not, not_not]
      exact ⟨Nat.not_lt.1 hshort, hversion⟩
    have hinv' := henter hinv
    have hent : rtpEnter st pkt = (rtpNewTs (Stream.rtpH264SeqGap st pkt).1
      (Stream.rtpH264SeqGap st pkt).2 (rtpTs pkt), (Stream.rtpH264SeqGap st pkt).2) := rfl
    rw [hent] at hinv'
    simp only [if_neg hgood, hent, hpayload]
    cases off with
    | none =>
      refine ⟨.bind hzero ?_, hinv'⟩
      simp only [ne_eq, hversion, not_true_eq_false, if_false]
      exact .bind hone (.bind hts (.bind hseq (.bind hoff (.pure _))))
    | some k =>
      -- The body gets the rest of the packet.
      obtain ⟨hrest, hrestBytes⟩ := h.rest (Nat.le_of_lt (hlt k rfl))
      obtain ⟨hyields, hafter⟩ := hbody (Stream.rtpH264SeqGap st pkt).2 (rtpMarker pkt) hinv'
        hrest (Nat.sub_pos_of_lt (hlt k rfl))
      rw [hrestBytes, hbytes] at hyields hafter
      refine ⟨.bind hzero ?_, hafter⟩
      simp only [ne_eq, hversion, not_true_eq_false, if_false]
      exact .bind hone (.bind hts (.bind hseq (.bind hoff hyields)))
  · have hbad : decide (12 ≤ pkt.length ∧ byteAt pkt 0 / 64 = 2) = false := by
      rw [decide_eq_false_iff_not]
      exact fun hand => hversion hand.2
    rw [if_pos hbad]
    refine ⟨.bind hzero ?_, hinv⟩
    simp only [ne_eq, hversion, not_false_eq_true, if_true]
    exact .pure _

end Header

/-! ## The MPEG-4 handler -/

/-- The first bytes are a VOP start code. -/
def isVop (xs : List UInt8) : Bool :=
  decide (byteAt xs 0 = 0 ∧ byteAt xs 1 = 0 ∧ byteAt xs 2 = 1 ∧ byteAt xs 3 = 0xb6)

theorem isVop_cons (a b c d : UInt8) (rest : List UInt8) :
    isVop (a :: b :: c :: d :: rest) = decide (a = 0 ∧ b = 0 ∧ c = 1 ∧ d = 0xb6) := by
  simp only [isVop, byteAt, List.getD_cons_zero, List.getD_cons_succ, ← UInt8.toNat_inj]
  rfl

theorem hasIVop_step (xs : List UInt8) :
    Stream.mpeg4PayloadHasIVop xs =
      if xs.length ≤ 4 then false
      else if isVop xs then decide (byteAt xs 4 / 64 = 0)
      else Stream.mpeg4PayloadHasIVop (xs.drop 1) := by
  rcases xs with _ | ⟨a, _ | ⟨b, _ | ⟨c, _ | ⟨d, _ | ⟨e, rest⟩⟩⟩⟩⟩
  all_goals try rfl
  have hlen : ¬ (a :: b :: c :: d :: e :: rest).length ≤ 4 := by simp
  rw [if_neg hlen, isVop_cons, Stream.mpeg4PayloadHasIVop]
  simp only [decide_eq_true_eq]
  rfl

theorem hasVop_step (xs : List UInt8) :
    Stream.mpeg4PayloadHasVop xs =
      if xs.length ≤ 3 then false
      else if isVop xs then true else Stream.mpeg4PayloadHasVop (xs.drop 1) := by
  rcases xs with _ | ⟨a, _ | ⟨b, _ | ⟨c, _ | ⟨d, rest⟩⟩⟩⟩
  all_goals try rfl
  have hlen : ¬ (a :: b :: c :: d :: rest).length ≤ 3 := by simp
  rw [if_neg hlen, isVop_cons, Stream.mpeg4PayloadHasVop]
  simp only [decide_eq_true_eq]
  rfl

section Mpeg4

variable {n m : ℕ} {p : Ptr} {len : ℕ}

theorem vopAt_yields (h : p.Valid n m len) {i : ℕ} (hi : i + 3 < len) :
    Yields (Access.Ok n m) (vopAt p i) (isVop ((p.bytes len).drop i)) := by
  have h₀ := h.get (i := i) (by omega)
  have h₁ := h.get (i := i + 1) (by omega)
  have h₂ := h.get (i := i + 2) (by omega)
  have h₃ := h.get (i := i + 3) hi
  unfold isVop vopAt
  simp only [byteAt_drop, Nat.add_zero]
  generalize byteAt (p.bytes len) i = b₀ at h₀
  generalize byteAt (p.bytes len) (i + 1) = b₁ at h₁
  generalize byteAt (p.bytes len) (i + 2) = b₂ at h₂
  generalize byteAt (p.bytes len) (i + 3) = b₃ at h₃
  -- Each comparison that fails ends the chain.
  refine .bind h₀ ?_
  by_cases hb₀ : b₀ = 0
  · rw [if_neg (not_not.2 hb₀)]
    refine .bind h₁ ?_
    by_cases hb₁ : b₁ = 0
    · rw [if_neg (not_not.2 hb₁)]
      refine .bind h₂ ?_
      by_cases hb₂ : b₂ = 1
      · rw [if_neg (not_not.2 hb₂)]
        exact .bind h₃ ((Yields.pure _).of_eq (by simp [hb₀, hb₁, hb₂]))
      · rw [if_pos hb₂]
        exact (Yields.pure _).of_eq (by simp [hb₂])
    · rw [if_pos hb₁]
      exact (Yields.pure _).of_eq (by simp [hb₁])
  · rw [if_pos hb₀]
    exact (Yields.pure _).of_eq (by simp [hb₀])

theorem hasIVop_yields (h : p.Valid n m len) (fuel : ℕ) :
    ∀ i, len ≤ fuel + i → Yields (Access.Ok n m) (mpeg4PayloadHasIVop p len fuel i)
      (Stream.mpeg4PayloadHasIVop ((p.bytes len).drop i)) := by
  induction fuel with
  | zero =>
    intro i hi
    have hnil : (p.bytes len).drop i = [] := by
      rw [List.drop_eq_nil_iff, h.length]
      omega
    rw [hnil]
    exact .pure _
  | succ fuel ih =>
    intro i hi
    have hlen : ((p.bytes len).drop i).length = len - i := by rw [List.length_drop, h.length]
    unfold mpeg4PayloadHasIVop
    rw [hasIVop_step, hlen]
    by_cases hend : len ≤ i + 4
    · rw [if_pos hend, if_pos (by omega)]
      exact .pure _
    · rw [if_neg hend, if_neg (by omega), List.drop_drop, byteAt_drop]
      refine .bind (vopAt_yields h (by omega)) ?_
      cases isVop ((p.bytes len).drop i) with
      | true => exact .bind (h.get (by omega)) (.pure _)
      | false => exact ih (i + 1) (by omega)

theorem hasVop_yields (h : p.Valid n m len) (fuel : ℕ) :
    ∀ i, len ≤ fuel + i → Yields (Access.Ok n m) (mpeg4PayloadHasVop p len fuel i)
      (Stream.mpeg4PayloadHasVop ((p.bytes len).drop i)) := by
  induction fuel with
  | zero =>
    intro i hi
    have hnil : (p.bytes len).drop i = [] := by
      rw [List.drop_eq_nil_iff, h.length]
      omega
    rw [hnil]
    exact .pure _
  | succ fuel ih =>
    intro i hi
    have hlen : ((p.bytes len).drop i).length = len - i := by rw [List.length_drop, h.length]
    unfold mpeg4PayloadHasVop
    rw [hasVop_step, hlen]
    by_cases hend : len ≤ i + 3
    · rw [if_pos hend, if_pos (by omega)]
      exact .pure _
    · rw [if_neg hend, if_neg (by omega), List.drop_drop]
      refine .bind (vopAt_yields h (by omega)) ?_
      cases isVop ((p.bytes len).drop i) with
      | true => exact .pure _
      | false => exact ih (i + 1) (by omega)

theorem peek_yields (h : p.Valid n m len) (i : ℕ) :
    ∃ b, Yields (Access.Ok n m) (peek p len i) b :=
  ⟨_, .ite (fun hi => h.get hi) fun _ => .pure _⟩

theorem mpeg4Body_yields {bs : BitstreamMem} {d : Decoder} {st : H264RtpState} {b : List UInt8}
    (hs : Staged bs d st b) (h : p.Valid n m len) (seqGap marker : Bool) :
    Yields (Access.Ok n m) (mpeg4Body d st seqGap marker p len)
      (Stream.mpeg4Body d st seqGap marker (p.bytes len)) := by
  obtain ⟨c₀, h₀⟩ := peek_yields h 0
  obtain ⟨c₁, h₁⟩ := peek_yields h 1
  obtain ⟨c₂, h₂⟩ := peek_yields h 2
  obtain ⟨c₃, h₃⟩ := peek_yields h 3
  have hI := hasIVop_yields h len 0 (by omega)
  have hV := hasVop_yields h len 0 (by omega)
  rw [List.drop_zero] at hI hV
  generalize hst₁ : (if Stream.mpeg4PayloadHasIVop (p.bytes len) then
    { st with auHasIdr := true, needIdr := false } else st) = st₁
  have hs₁ : Staged bs d st₁ b := by
    rw [← hst₁]
    split <;> exact hs.setFlags rfl
  unfold mpeg4Body Stream.mpeg4Body
  refine .bind h₀ (.bind h₁ (.bind h₂ (.bind h₃ (.bind hI ?_))))
  simp only [hst₁]
  refine .bind (.ite (fun _ => hV) fun _ => .pure false) ?_
  by_cases hdrop : st₁.needIdr = true ∧ Stream.mpeg4PayloadHasVop (p.bytes len) = true
  · simp only [hdrop.1, hdrop.2, and_self, if_true]
    refine .bind (.pure _) ?_
    exact .ite (fun _ => .pure _) fun _ => .pure _
  · have hkeep : ¬ (if st₁.needIdr = true then Stream.mpeg4PayloadHasVop (p.bytes len)
        else false) = true := by
      intro hyes
      split at hyes
      · rename_i hneed
        exact hdrop ⟨hneed, hyes⟩
      · exact absurd hyes Bool.false_ne_true
    rw [if_neg hkeep, if_neg hdrop]
    refine .bind (rtpDirectAppend_yields hs₁ h) ?_
    exact .ite (fun _ => .pure _) fun _ => .pure _

end Mpeg4

/-! ## Every packet, in every state -/

/-- What the direct handlers keep: the staged bytes are in the ring, and `fu_len` is not used. -/
def RingSafe (bs : BitstreamMem) (d : Decoder) (st : H264RtpState) : Prop :=
  (∃ b, Staged bs d st b) ∧ st.fuLen ≤ fuSize

section Direct

variable {bs : BitstreamMem} {d : Decoder} {st : H264RtpState}

theorem rtpDirectAppend_fuLen (d : Decoder) (st : H264RtpState) (p : List UInt8) :
    (Stream.rtpDirectAppend d st p).2.1.fuLen = st.fuLen := by
  unfold Stream.rtpDirectAppend
  split
  · rfl
  simp only
  split
  · rfl
  split <;> rfl

theorem rtpDirectAppendNal_fuLen (d : Decoder) (st : H264RtpState) (nal : List UInt8) :
    (Stream.rtpDirectAppendNal d st nal).2.1.fuLen = st.fuLen := by
  have hcode := rtpDirectAppend_fuLen d st startCode
  unfold Stream.rtpDirectAppendNal
  generalize Stream.rtpDirectAppend d st startCode = r at hcode
  obtain ⟨d', st', ok⟩ := r
  cases ok with
  | true => exact (rtpDirectAppend_fuLen d' st' nal).trans hcode
  | false => exact hcode

theorem fuADirect_fuLen (spspps : List UInt8) (d : Decoder) (st : H264RtpState) (seqGap : Bool)
    (payload : List UInt8) :
    (Stream.fuADirect spspps d st seqGap payload).2.1.fuLen = st.fuLen := by
  have hbegin : (Stream.fuBeginDirect spspps d st payload).2.fuLen = st.fuLen := by
    unfold Stream.fuBeginDirect
    simp only
    refine (rtpDirectAppendNal_fuLen _ _ _).trans ?_
    split
    · refine (rtpDirectAppend_fuLen _ _ _).trans ?_
      split <;> rfl
    · split <;> rfl
  have hjoin : ∀ x : Decoder × H264RtpState,
      (Stream.fuJoinDirect x.1 x.2 payload).2.fuLen = x.2.fuLen := by
    intro x
    unfold Stream.fuJoinDirect
    split
    · rfl
    · simp only
      split <;> exact rtpDirectAppend_fuLen _ _ _
  unfold Stream.fuADirect
  split
  · rfl
  · refine (hjoin _).trans ?_
    split
    · exact hbegin
    · rfl

theorem rtpDirectFlush_fuLen (d : Decoder) (st : H264RtpState) :
    (rtpDirectFlush d st).2.1.fuLen = st.fuLen := by
  unfold rtpDirectFlush
  split
  · simp only
    split
    · split <;> rfl
    · rfl
  · rfl

theorem RingSafe.flush (h : RingSafe bs d st) :
    RingSafe bs (rtpDirectFlush d st).1 (rtpDirectFlush d st).2.1 := by
  obtain ⟨⟨b, hb⟩, hfu⟩ := h
  refine ⟨?_, by rwa [rtpDirectFlush_fuLen]⟩
  obtain ⟨d', heq, hst, -⟩ := rtpDirectFlush_spec hb
  rw [heq]
  exact ⟨[], hst⟩

theorem RingSafe.append (h : RingSafe bs d st) (p : List UInt8) :
    RingSafe bs (Stream.rtpDirectAppend d st p).1 (Stream.rtpDirectAppend d st p).2.1 := by
  obtain ⟨⟨b, hb⟩, hfu⟩ := h
  exact ⟨(direct_append [] hb p).stays.2.2.2, by rwa [rtpDirectAppend_fuLen]⟩

/-- The prologue keeps what is staged, or drops all of it. -/
theorem RingSafe.enter (h : RingSafe bs d st) (pkt : List UInt8) :
    RingSafe bs d (rtpEnter st pkt).1 := by
  obtain ⟨⟨b, hb⟩, hfu⟩ := h
  have hgap : (Stream.rtpH264SeqGap st pkt).1.auLen = st.auLen ∧
      (Stream.rtpH264SeqGap st pkt).1.fuLen ≤ fuSize := by
    unfold Stream.rtpH264SeqGap
    simp only
    split
    · exact ⟨rfl, hfu⟩
    split
    · exact ⟨rfl, hfu⟩
    split
    · exact ⟨rfl, hfu⟩
    · exact ⟨rfl, Nat.zero_le _⟩
  have hst := hb.setFlags hgap.1
  unfold rtpEnter rtpNewTs
  simp only
  split
  · split
    · exact ⟨⟨[], hst.reset rfl⟩, hgap.2⟩
    · exact ⟨⟨b, hst.setFlags rfl⟩, hgap.2⟩
  split
  · exact ⟨⟨b, hst.setFlags rfl⟩, hgap.2⟩
  · exact ⟨⟨b, hst⟩, hgap.2⟩

end Direct

theorem BufferInv.enter {st : H264RtpState} (h : BufferInv st) (pkt : List UInt8) :
    BufferInv (rtpEnter st pkt).1 := by
  have hgap : BufferInv (Stream.rtpH264SeqGap st pkt).1 := by
    unfold Stream.rtpH264SeqGap
    simp only
    split
    · exact h
    split
    · exact h.flags h.auLen rfl (Nat.le_refl _)
    split
    · exact h.flags h.auLen rfl (Nat.le_refl _)
    · exact h.flags h.auLen rfl (Nat.zero_le _)
  unfold rtpEnter rtpNewTs
  simp only
  split
  · split
    · exact hgap.flags (Nat.zero_le _) rfl (Nat.le_refl _)
    · exact hgap.flags hgap.auLen rfl (Nat.le_refl _)
  split
  · exact hgap.flags hgap.auLen rfl (Nat.le_refl _)
  · exact hgap

theorem buffered_safe (spspps : List UInt8) (n : ℕ) :
    StoreSafe bufferedStore Stream.bufferedStore spspps (fun _ st => BufferInv st) n where
  flag h := h.flags h.auLen rfl (Nat.le_refl _)
  appendBytes h hp := ⟨.bind (rtpAuAppendBytes_yields hp) (.pure _), h.appendBytes _⟩
  appendNal h hp := ⟨.bind (rtpAuAppend_yields hp) (.pure _), h.append _⟩
  fuA := by
    intro out st p len seqGap h hp hlen
    have hboth := fuABuffered_yields h (spsppsPtr_valid n spspps) hp hlen out seqGap
    rwa [spsppsPtr_bytes] at hboth
  flush h := ⟨rtpAuFlush_yields h _, h.flush _⟩

theorem direct_safe (bs : BitstreamMem) (spspps : List UInt8) (n : ℕ) :
    StoreSafe directStore Stream.directStore spspps (RingSafe bs) n where
  flag h := ⟨h.1.imp fun _ hb => hb.setFlags rfl, h.2⟩
  appendBytes := by
    intro d st p len h hp
    obtain ⟨b, hb⟩ := h.1
    exact ⟨.bind (rtpDirectAppend_yields hb hp) (.pure _), h.append _⟩
  appendNal := by
    intro d st p len h hp
    obtain ⟨b, hb⟩ := h.1
    refine ⟨.bind (rtpDirectAppendNal_yields hb hp) (.pure _), ?_, ?_⟩
    · exact (direct_appendNal [] hb _).stays.2.2.2
    · exact (rtpDirectAppendNal_fuLen _ _ _).trans_le h.2
  fuA := by
    intro d st p len seqGap h hp hlen
    obtain ⟨b, hb⟩ := h.1
    have hyields := fuADirect_yields hb (spsppsPtr_valid n spspps) hp hlen seqGap
    rw [spsppsPtr_bytes] at hyields
    refine ⟨hyields, ?_, ?_⟩
    · exact ((directLaw bs spspps).fuStays seqGap (p.bytes len) hb).2.2.2
    · exact (fuADirect_fuLen _ _ _ _ _).trans_le h.2
  flush h := ⟨.pure _, h.flush⟩

theorem mpeg4_safe {bs : BitstreamMem} {d : Decoder} {st : H264RtpState} {n m : ℕ} {p : Ptr}
    {len : ℕ} (seqGap marker : Bool) (h : RingSafe bs d st) (hp : p.Valid n m len) :
    Yields (Access.Ok n m) (mpeg4Body d st seqGap marker p len)
        (Stream.mpeg4Body d st seqGap marker (p.bytes len)) ∧
      RingSafe bs (Stream.mpeg4Body d st seqGap marker (p.bytes len)).1
        (Stream.mpeg4Body d st seqGap marker (p.bytes len)).2.1 := by
  obtain ⟨b, hb⟩ := h.1
  refine ⟨mpeg4Body_yields hb hp seqGap marker, ?_⟩
  have hflags : RingSafe bs d (if Stream.mpeg4PayloadHasIVop (p.bytes len) then
      { st with auHasIdr := true, needIdr := false } else st) := by
    split
    · exact ⟨⟨b, hb.setFlags rfl⟩, h.2⟩
    · exact h
  unfold Stream.mpeg4Body
  generalize (if Stream.mpeg4PayloadHasIVop (p.bytes len) then
    { st with auHasIdr := true, needIdr := false } else st) = st₁ at hflags
  by_cases hdrop : st₁.needIdr = true ∧ Stream.mpeg4PayloadHasVop (p.bytes len) = true
  · simp only [if_pos hdrop]
    cases marker with
    | true => exact hflags.flush
    | false => exact hflags
  · simp only [if_neg hdrop]
    cases marker with
    | true => exact (hflags.append _).flush
    | false => exact hflags.append _

/-! ## One packet of each handler -/

theorem handleRtpH264_yields (spspps pkt : List UInt8) {out : List (List UInt8)}
    {st : H264RtpState} (h : BufferInv st) :
    Yields (Access.Ok pkt.length spspps.length) (handleRtpH264 spspps out st pkt)
        (Stream.handleRtpH264 spspps out st pkt) ∧
      BufferInv (Stream.handleRtpH264 spspps out st pkt).2.1 :=
  rtpHandle_yields (I := fun _ st => BufferInv st) pkt (fun hst => BufferInv.enter hst pkt)
    (h264Body_yields (buffered_safe spspps pkt.length)) h

theorem handleRtpH264Direct_yields {bs : BitstreamMem} (spspps pkt : List UInt8) {d : Decoder}
    {st : H264RtpState} (h : RingSafe bs d st) :
    Yields (Access.Ok pkt.length spspps.length) (handleRtpH264Direct spspps d st pkt)
        (Stream.handleRtpH264Direct spspps d st pkt) ∧
      RingSafe bs (Stream.handleRtpH264Direct spspps d st pkt).1
        (Stream.handleRtpH264Direct spspps d st pkt).2.1 :=
  rtpHandle_yields (I := RingSafe bs) pkt (fun hst => RingSafe.enter hst pkt)
    (h264Body_yields (direct_safe bs spspps pkt.length)) h

/-- The MPEG-4 handler has no parameter sets to read. -/
theorem handleRtpMpeg4Direct_yields {bs : BitstreamMem} (pkt : List UInt8) {d : Decoder}
    {st : H264RtpState} (h : RingSafe bs d st) :
    Yields (Access.Ok pkt.length 0) (handleRtpMpeg4Direct d st pkt)
        (Stream.handleRtpMpeg4Direct d st pkt) ∧
      RingSafe bs (Stream.handleRtpMpeg4Direct d st pkt).1
        (Stream.handleRtpMpeg4Direct d st pkt).2.1 := by
  unfold handleRtpMpeg4Direct Stream.handleRtpMpeg4Direct
  apply rtpHandle_yields (I := RingSafe bs) pkt (fun hst => RingSafe.enter hst pkt) _ h
  intro d st seqGap marker p len hst hp _
  exact mpeg4_safe seqGap marker hst hp

/-! ## Every packet -/

/-- Whatever packets came before, `prog` does to the next one what `handle` does, with safe accesses
only, and leaves lengths within `Bound`. -/
def MemorySafe {α : Type} (handle : Handler α)
    (prog : α → H264RtpState → List UInt8 → Prog (α × H264RtpState × ℕ)) (start : α)
    (spsppsLen : ℕ) (Bound : H264RtpState → Prop) : Prop :=
  ∀ (pkts : List (List UInt8)) (pkt : List UInt8),
    let x := deliverAll handle start pkts
    (prog x.1 x.2 pkt).value = handle x.1 x.2 pkt ∧
      (∀ e ∈ (prog x.1 x.2 pkt).log, e.Ok pkt.length spsppsLen) ∧
      Bound (prog x.1 x.2 pkt).value.2.1

/-- From one packet to all of them. -/
theorem memorySafe_of_step {α : Type} {handle : Handler α}
    {prog : α → H264RtpState → List UInt8 → Prog (α × H264RtpState × ℕ)} {start : α}
    {spsppsLen : ℕ} {Bound : H264RtpState → Prop} {I : α → H264RtpState → Prop}
    (hstart : I start {}) (hbound : ∀ {s st}, I s st → Bound st)
    (hstep : ∀ {s st} pkt, I s st →
      Yields (Access.Ok pkt.length spsppsLen) (prog s st pkt) (handle s st pkt) ∧
        I (handle s st pkt).1 (handle s st pkt).2.1) :
    MemorySafe handle prog start spsppsLen Bound := by
  intro pkts pkt
  have hreach := deliverAll_inv hstart (fun q hq => (hstep q hq).2) pkts
  obtain ⟨⟨hvalue, hlog⟩, hafter⟩ := hstep pkt hreach
  refine ⟨hvalue, hlog, ?_⟩
  rw [show (prog (deliverAll handle start pkts).1 (deliverAll handle start pkts).2 pkt).value = _
    from hvalue]
  exact hbound hafter

/-- No sequence of packets makes one of the three handlers read outside the packet and the
parameter sets, write outside its buffers, touch unread bytes of the ring, or let a length exceed
the buffer it counts. -/
theorem rtp_handlers_memory_safe (spspps : List UInt8) :
    MemorySafe (Stream.handleRtpH264 spspps) (handleRtpH264 spspps) [] spspps.length
        (fun st => st.fuLen ≤ fuSize ∧ st.auLen ≤ auSize) ∧
      ∀ (bs : BitstreamMem) (mem : ℕ → UInt8) (sched : List ℕ),
        MemorySafe (Stream.handleRtpH264Direct spspps) (handleRtpH264Direct spspps)
            (vpuDecOpenRing bs.phyAddr streamBufSize mem sched) spspps.length
            (fun st => st.fuLen ≤ fuSize ∧ st.auLen < streamBufSize) ∧
          MemorySafe Stream.handleRtpMpeg4Direct handleRtpMpeg4Direct
            (vpuDecOpenRing bs.phyAddr streamBufSize mem sched) 0
            (fun st => st.fuLen ≤ fuSize ∧ st.auLen < streamBufSize) := by
  have hbound : ∀ {bs d st}, RingSafe bs d st → st.fuLen ≤ fuSize ∧ st.auLen < streamBufSize := by
    rintro bs d st ⟨⟨b, queue, hring, hlen⟩, hfu⟩
    have hroom := hring.holds.room
    exact ⟨hfu, by omega⟩
  constructor
  · exact memorySafe_of_step (I := fun _ st => BufferInv st)
      ⟨Nat.zero_le _, Nat.zero_le _, Nat.zero_le _⟩
      (fun h => ⟨h.fuLen.trans h.fu, h.auLen⟩) fun pkt => handleRtpH264_yields spspps pkt
  · intro bs mem sched
    have hstart : RingSafe bs (vpuDecOpenRing bs.phyAddr streamBufSize mem sched) {} :=
      ⟨⟨[], (DirectInv.start bs mem sched 0).staged⟩, Nat.zero_le _⟩
    exact ⟨memorySafe_of_step hstart hbound fun pkt => handleRtpH264Direct_yields spspps pkt,
      memorySafe_of_step hstart hbound fun pkt => handleRtpMpeg4Direct_yields pkt⟩

end Memory
end Stream
end ToonVpu
