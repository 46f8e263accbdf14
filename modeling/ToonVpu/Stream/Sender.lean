import Mathlib.Data.List.Chain
import Mathlib.Data.List.GetD
import ToonVpu.Stream.Rtp

/-!
# Sender — RTP packets on the wire and a network that drops some of them

The handlers of `apps/vpu_stream.c` read RTP packets somebody else built.  This module says what
a well-formed sender sends: access units, each cut into packets that share its timestamp, with
consecutive sequence numbers and the marker bit on the last packet of a unit.  The network
delivers the packets in order, except those it drops.

`Link` puts a handler behind such a network.  It keeps two ghosts beside the handler's state: how
many packets were sent, and which one was delivered last.
-/

namespace ToonVpu
namespace Stream

open Foundation
open Lib

/-! ## Packets -/

/-- A 16-bit number in network order. -/
def be16 (n : ℕ) : List UInt8 := [UInt8.ofNat (n / 256), UInt8.ofNat n]

/-- A 32-bit number in network order. -/
def be32 (n : ℕ) : List UInt8 :=
  [UInt8.ofNat (n / 16777216), UInt8.ofNat (n / 65536), UInt8.ofNat (n / 256), UInt8.ofNat n]

/-- The parts of an RTP header that the handlers skip over. -/
structure RtpHeader where
  padding : Bool := false
  payloadType : Fin 128 := 96
  ssrc : UInt32 := 0
  csrc : List UInt32 := []
  csrc_le : csrc.length ≤ 15 := by simp
  extension : Option (UInt16 × List UInt32) := none
  extension_lt : ∀ e ∈ extension, e.2.length < 65536 := by simp
  deriving DecidableEq, Repr

/-- The header extension: profile, length in words, words. -/
def RtpHeader.extensionBytes (hd : RtpHeader) : List UInt8 :=
  match hd.extension with
  | none => []
  | some (profile, words) =>
    be16 profile.toNat ++ be16 words.length ++ words.flatMap fun w => be32 w.toNat

/-- The bytes of a packet. -/
def RtpHeader.encode (hd : RtpHeader) (marker : Bool) (seq ts : ℕ) (payload : List UInt8) :
    List UInt8 :=
  [UInt8.ofNat (128 + (if hd.padding then 32 else 0) + (if hd.extension.isSome then 16 else 0) +
      hd.csrc.length),
    UInt8.ofNat ((if marker then 128 else 0) + hd.payloadType)] ++
  be16 seq ++ be32 ts ++ be32 hd.ssrc.toNat ++
  hd.csrc.flatMap (fun w => be32 w.toNat) ++ hd.extensionBytes ++ payload

/-- A packet as its sender builds it.  What follows the header is the payload, padding
included; `arrives` is the network's choice. -/
structure Packet where
  header : RtpHeader := {}
  payload : List UInt8
  arrives : Bool := true
  deriving DecidableEq, Repr

/-- An access unit, cut into packets. -/
structure AccessUnit where
  ts : UInt32
  packets : List Packet
  nonempty : packets ≠ [] := by simp
  deriving DecidableEq, Repr

/-- All payload bytes of an access unit. -/
def AccessUnit.bytes (a : AccessUnit) : List UInt8 := a.packets.flatMap Packet.payload

/-- A packet with the access unit it belongs to and its marker bit. -/
structure WirePacket where
  unit : AccessUnit
  packet : Packet
  marker : Bool
  deriving DecidableEq, Repr

/-- The packet as it is on the wire when it is number `sent`. -/
def WirePacket.encode (w : WirePacket) (sent : ℕ) : List UInt8 :=
  w.packet.header.encode w.marker sent w.unit.ts.toNat w.packet.payload

/-- Packets of the unit `a`, the last one marked. -/
def wirePackets (a : AccessUnit) : List Packet → List WirePacket
  | [] => []
  | [p] => [⟨a, p, true⟩]
  | p :: q :: ps => ⟨a, p, false⟩ :: wirePackets a (q :: ps)

def AccessUnit.wire (a : AccessUnit) : List WirePacket := wirePackets a a.packets

/-- All packets of some units, in the order they are sent. -/
def wire (units : List AccessUnit) : List WirePacket := units.flatMap AccessUnit.wire

theorem wirePackets_cons (a : AccessUnit) (p : Packet) (ps : List Packet) :
    wirePackets a (p :: ps) = ⟨a, p, ps.isEmpty⟩ :: wirePackets a ps := by
  cases ps with
  | nil => rfl
  | cons q ps => rfl

theorem wire_concat (units : List AccessUnit) (a : AccessUnit) :
    wire (units ++ [a]) = wire units ++ a.wire := by
  simp [wire]

/-- What a sender sends: consecutive units have different timestamps. -/
structure Sender where
  units : List AccessUnit
  distinct : units.IsChain fun a b => a.ts ≠ b.ts

/-! ## What the handlers read from a well-formed packet -/

theorem byteAt_append_right (xs ys : List UInt8) (i : ℕ) :
    byteAt (xs ++ ys) (xs.length + i) = byteAt ys i := by
  unfold byteAt
  rw [List.getD_append_right _ _ _ _ (Nat.le_add_right _ _), Nat.add_sub_cancel_left]

@[simp] theorem length_be16 (n : ℕ) : (be16 n).length = 2 := rfl

@[simp] theorem length_be32 (n : ℕ) : (be32 n).length = 4 := rfl

theorem length_flatMap_be32 (ws : List UInt32) :
    (ws.flatMap fun w => be32 w.toNat).length = ws.length * 4 := by
  induction ws with
  | nil => rfl
  | cons w ws ih =>
    rw [List.flatMap_cons, List.length_append, ih, length_be32, List.length_cons]
    omega

section Encode

variable (hd : RtpHeader) (marker : Bool) (seq ts : ℕ) (payload : List UInt8)

/-- The first byte: version 2, padding bit, extension bit, CSRC count. -/
theorem byteAt_encode_zero :
    byteAt (hd.encode marker seq ts payload) 0 =
      128 + (if hd.padding then 32 else 0) + (if hd.extension.isSome then 16 else 0) +
        hd.csrc.length := by
  have hle := hd.csrc_le
  simp only [byteAt, RtpHeader.encode, List.cons_append, List.getD_cons_zero, UInt8.toNat_ofNat']
  apply Nat.mod_eq_of_lt
  cases hd.padding <;> cases hd.extension.isSome <;> simp <;> omega

@[simp] theorem rtpWellFormed_encode : rtpWellFormed (hd.encode marker seq ts payload) = true := by
  have hle := hd.csrc_le
  have hlen : 12 ≤ (hd.encode marker seq ts payload).length := by
    simp [RtpHeader.encode, be16, be32]
  unfold rtpWellFormed
  rw [byteAt_encode_zero]
  simp only [hlen, true_and, decide_eq_true_eq]
  cases hd.padding <;> cases hd.extension.isSome <;> simp <;> omega

@[simp] theorem rtpMarker_encode : rtpMarker (hd.encode marker seq ts payload) = marker := by
  have hlt := hd.payloadType.isLt
  have hbyte : byteAt (hd.encode marker seq ts payload) 1 =
      (if marker then 128 else 0) + hd.payloadType := by
    simp only [byteAt, RtpHeader.encode, List.cons_append, List.getD_cons_succ,
      List.getD_cons_zero, UInt8.toNat_ofNat']
    apply Nat.mod_eq_of_lt
    cases marker <;> simp <;> omega
  unfold rtpMarker
  rw [hbyte]
  cases marker <;> simp

@[simp] theorem rtpSeq_encode : rtpSeq (hd.encode marker seq ts payload) = seq % 65536 := by
  simp only [rtpSeq, byteAt, RtpHeader.encode, be16, List.cons_append, List.nil_append,
    List.getD_cons_succ, List.getD_cons_zero, UInt8.toNat_ofNat']
  omega

@[simp] theorem rtpTs_encode : rtpTs (hd.encode marker seq ts payload) = ts % 4294967296 := by
  simp only [rtpTs, byteAt, RtpHeader.encode, be16, be32, List.cons_append, List.nil_append,
    List.getD_cons_succ, List.getD_cons_zero, UInt8.toNat_ofNat']
  omega

/-- The walk over the header ends where the payload starts. -/
@[simp] theorem rtpPayload_encode :
    rtpPayload (hd.encode marker seq ts payload) = if payload = [] then none else some payload := by
  have hle := hd.csrc_le
  have hzero := byteAt_encode_zero hd marker seq ts payload
  have hcc : byteAt (hd.encode marker seq ts payload) 0 % 16 = hd.csrc.length := by
    rw [hzero]
    cases hd.padding <;> cases hd.extension.isSome <;> simp <;> omega
  have hext : byteAt (hd.encode marker seq ts payload) 0 / 16 % 2 =
      if hd.extension.isSome then 1 else 0 := by
    rw [hzero]
    cases hd.padding <;> cases hd.extension.isSome <;> simp <;> omega
  -- The packet is its fixed header and CSRC list, the extension, and the payload.
  obtain ⟨front, hfront, hsplit⟩ : ∃ front : List UInt8, front.length = 12 + hd.csrc.length * 4 ∧
      hd.encode marker seq ts payload = front ++ (hd.extensionBytes ++ payload) := by
    refine ⟨_, ?_, List.append_assoc _ _ _⟩
    simp only [List.length_append, length_flatMap_be32, length_be16, length_be32,
      List.length_cons, List.length_nil]
  have hdrop : ∀ xs : List UInt8, (if (xs ++ payload).length ≤ xs.length then none
      else some ((xs ++ payload).drop xs.length)) =
      if payload = [] then none else some payload := by
    intro xs
    by_cases hp : payload = []
    · simp [hp]
    · have hpos := List.length_pos_iff.2 hp
      rw [if_neg (by rw [List.length_append]; omega), if_neg hp, List.drop_left]
  simp only [rtpPayload, hcc, hext]
  cases hcase : hd.extension with
  | none =>
    have hnil : hd.extensionBytes = [] := by simp [RtpHeader.extensionBytes, hcase]
    rw [hnil, List.nil_append] at hsplit
    simp only [Option.isSome_none, Bool.false_eq_true, if_false, Nat.zero_ne_one]
    rw [hsplit, ← hfront]
    exact hdrop front
  | some e =>
    obtain ⟨profile, words⟩ := e
    have hwords := hd.extension_lt (profile, words) (by simp [hcase])
    have hbytes : hd.extensionBytes = be16 profile.toNat ++ be16 words.length ++
        words.flatMap (fun w => be32 w.toNat) := by simp [RtpHeader.extensionBytes, hcase]
    have hlen : hd.extensionBytes.length = 4 + words.length * 4 := by
      rw [hbytes]
      simp only [List.length_append, length_flatMap_be32, length_be16]
    have hcount : byteAt (hd.encode marker seq ts payload) (12 + hd.csrc.length * 4 + 2) * 256 +
        byteAt (hd.encode marker seq ts payload) (12 + hd.csrc.length * 4 + 3) = words.length := by
      rw [hsplit, ← hfront, byteAt_append_right, byteAt_append_right, hbytes]
      simp only [be16, byteAt, List.cons_append, List.nil_append, List.getD_cons_succ,
        List.getD_cons_zero, UInt8.toNat_ofNat']
      simp only at hwords
      omega
    have hshort : ¬ (hd.encode marker seq ts payload).length <
        12 + hd.csrc.length * 4 + 4 := by
      rw [hsplit]
      simp only [List.length_append]
      omega
    simp only [Option.isSome_some, if_true, if_neg hshort, hcount]
    have hoff : 12 + hd.csrc.length * 4 + (4 + words.length * 4) =
        (front ++ hd.extensionBytes).length := by
      rw [List.length_append, hlen]
      omega
    rw [hoff, hsplit, ← List.append_assoc]
    exact hdrop _

end Encode

/-- What a handler does with a packet of the wire. -/
theorem rtpHandle_encode {α : Type*}
    (body : α → H264RtpState → Bool → Bool → List UInt8 → α × H264RtpState × ℕ)
    (s : α) (st : H264RtpState) (w : WirePacket) (sent : ℕ) :
    rtpHandle body s st (w.encode sent) =
      if w.packet.payload = [] then
        (s, (rtpEnter st (w.encode sent)).1, 0)
      else
        body s (rtpEnter st (w.encode sent)).1 (rtpEnter st (w.encode sent)).2 w.marker
          w.packet.payload := by
  unfold rtpHandle WirePacket.encode
  by_cases hp : w.packet.payload = [] <;> simp [hp]

/-! ## A handler behind the network -/

/-- A handler of RTP packets with its output. -/
abbrev Handler (α : Type*) := α → H264RtpState → List UInt8 → α × H264RtpState × ℕ

/-- The receiver after some packets of any bytes. -/
def deliverAll {α : Type*} (handle : Handler α) (start : α) (pkts : List (List UInt8)) :
    α × H264RtpState :=
  pkts.foldl (fun x pkt => ((handle x.1 x.2 pkt).1, (handle x.1 x.2 pkt).2.1)) (start, {})

/-- What one packet preserves holds after all of them. -/
theorem deliverAll_inv {α : Type*} {handle : Handler α} {start : α}
    {I : α → H264RtpState → Prop} (hstart : I start {})
    (hstep : ∀ {s st} pkt, I s st → I (handle s st pkt).1 (handle s st pkt).2.1)
    (pkts : List (List UInt8)) :
    I (deliverAll handle start pkts).1 (deliverAll handle start pkts).2 := by
  have hrun : ∀ (pkts : List (List UInt8)) (x : α × H264RtpState), I x.1 x.2 →
      I (pkts.foldl (fun x pkt => ((handle x.1 x.2 pkt).1, (handle x.1 x.2 pkt).2.1)) x).1
        (pkts.foldl (fun x pkt => ((handle x.1 x.2 pkt).1, (handle x.1 x.2 pkt).2.1)) x).2 := by
    intro pkts
    induction pkts with
    | nil =>
      intro x hx
      exact hx
    | cons q qs ih =>
      intro x hx
      exact ih _ (hstep q hx)
  exact hrun pkts (start, {}) hstart

/-- The receiver, the number the next packet gets (from an arbitrary first one), and how many
packets were lost since the last delivery; `lost` is `none` before the first one. -/
structure Link (α : Type*) where
  out : α
  st : H264RtpState
  sent : ℕ
  lost : Option ℕ

/-- The number of losses since the last delivery, after a run of deliveries and losses. -/
def lostAfter (lost : Option ℕ) (ws : List WirePacket) : Option ℕ :=
  ws.foldl (fun n w => if w.packet.arrives then some 0 else n.map (· + 1)) lost

/-- Whether the sequence number of the next delivery shows a gap. -/
def gapSeen : Option ℕ → Bool
  | none => false
  | some n => decide (n % 65536 ≠ 0)

/-- Every loss shows in the sequence number of the next delivery: between two deliveries, the
number of lost packets is never a positive multiple of `65536`. -/
def GapsVisible (lost : Option ℕ) : List WirePacket → Prop
  | [] => True
  | w :: ws =>
    (w.packet.arrives = true → ∀ n ∈ lost, n % 65536 = 0 → n = 0) ∧
      GapsVisible (lostAfter lost [w]) ws

theorem GapsVisible.append {lost : Option ℕ} {us ws : List WirePacket}
    (h : GapsVisible lost (us ++ ws)) :
    GapsVisible lost us ∧ GapsVisible (lostAfter lost us) ws := by
  induction us generalizing lost with
  | nil => exact ⟨trivial, h⟩
  | cons u us ih =>
    obtain ⟨hhead, htail⟩ := h
    obtain ⟨hus, hws⟩ := ih htail
    exact ⟨⟨hhead, hus⟩, hws⟩

namespace Link

variable {α : Type*}

def send (handle : Handler α) (l : Link α) (w : WirePacket) : Link α :=
  if w.packet.arrives then
    let r := handle l.out l.st (w.encode l.sent)
    ⟨r.1, r.2.1, l.sent + 1, some 0⟩
  else
    { l with sent := l.sent + 1, lost := l.lost.map (· + 1) }

def run (handle : Handler α) (l : Link α) (ws : List WirePacket) : Link α :=
  ws.foldl (send handle) l

/-- Whether the next delivery will be seen as a gap. -/
def gap (l : Link α) : Bool := gapSeen l.lost

/-- The receiver's sequence number agrees with what was sent and lost. -/
structure SeqInv (l : Link α) : Prop where
  haveSeq : l.st.haveSeq = l.lost.isSome
  lastSeq : ∀ n ∈ l.lost, (l.st.lastSeq + 1 + n) % 65536 = l.sent % 65536

@[simp] theorem run_nil (handle : Handler α) (l : Link α) : l.run handle [] = l := rfl

@[simp] theorem run_cons (handle : Handler α) (l : Link α) (w : WirePacket)
    (ws : List WirePacket) : l.run handle (w :: ws) = (l.send handle w).run handle ws := rfl

theorem run_append (handle : Handler α) (l : Link α) (us ws : List WirePacket) :
    l.run handle (us ++ ws) = (l.run handle us).run handle ws :=
  List.foldl_append

theorem send_of_arrives {handle : Handler α} {l : Link α} {w : WirePacket}
    (h : w.packet.arrives = true) :
    l.send handle w = ⟨(handle l.out l.st (w.encode l.sent)).1,
      (handle l.out l.st (w.encode l.sent)).2.1, l.sent + 1, some 0⟩ := by
  simp [send, h]

theorem send_of_lost {handle : Handler α} {l : Link α} {w : WirePacket}
    (h : w.packet.arrives = false) :
    l.send handle w = { l with sent := l.sent + 1, lost := l.lost.map (· + 1) } := by
  simp [send, h]

theorem send_lost_eq (handle : Handler α) (l : Link α) (w : WirePacket) :
    (l.send handle w).lost = lostAfter l.lost [w] := by
  by_cases harr : w.packet.arrives = true
  · simp [send, lostAfter, harr]
  · simp [send, lostAfter, harr]

theorem run_lost_eq (handle : Handler α) (l : Link α) (ws : List WirePacket) :
    (l.run handle ws).lost = lostAfter l.lost ws := by
  induction ws generalizing l with
  | nil => rfl
  | cons w ws ih =>
    rw [run_cons, ih, send_lost_eq]
    rfl

/-- What the sequence check finds in a packet of the wire. -/
theorem rtpH264SeqGap_encode {l : Link α} (h : l.SeqInv) (w : WirePacket) :
    rtpH264SeqGap l.st (w.encode l.sent) =
      (if l.gap then
          { l.st with
            haveSeq := true, lastSeq := l.sent % 65536, fuActive := false, fuLen := 0,
            needIdr := true }
        else { l.st with haveSeq := true, lastSeq := l.sent % 65536 }, l.gap) := by
  have hlen : ¬ (w.encode l.sent).length < 4 := by
    have hwell := rtpWellFormed_encode w.packet.header w.marker l.sent w.unit.ts.toNat
      w.packet.payload
    simp only [rtpWellFormed, decide_eq_true_eq] at hwell
    unfold WirePacket.encode
    omega
  have hseq : rtpSeq (w.encode l.sent) = l.sent % 65536 := rtpSeq_encode _ _ _ _ _
  have hhave := h.haveSeq
  unfold rtpH264SeqGap gap gapSeen
  rw [if_neg hlen, hseq]
  cases hlost : l.lost with
  | none =>
    rw [hlost] at hhave
    simp [show l.st.haveSeq = false from hhave]
  | some n =>
    rw [hlost] at hhave
    have htrue : l.st.haveSeq = true := hhave
    have hlast := h.lastSeq n (by simp [hlost])
    by_cases hn : n % 65536 = 0
    · have hexpect : l.sent % 65536 = (l.st.lastSeq + 1) % 65536 := by omega
      simp [htrue, hexpect, hn]
    · have hexpect : l.sent % 65536 ≠ (l.st.lastSeq + 1) % 65536 := by omega
      simp [htrue, hexpect, hn]

/-- The prologue on a packet of the wire. -/
theorem rtpEnter_encode {l : Link α} (h : l.SeqInv) (w : WirePacket) :
    rtpEnter l.st (w.encode l.sent) =
      (rtpNewTs
        (if l.gap then
            { l.st with
              haveSeq := true, lastSeq := l.sent % 65536, fuActive := false, fuLen := 0,
              needIdr := true }
          else { l.st with haveSeq := true, lastSeq := l.sent % 65536 })
        l.gap w.unit.ts.toNat, l.gap) := by
  have hts : rtpTs (w.encode l.sent) = w.unit.ts.toNat := by
    unfold WirePacket.encode
    rw [rtpTs_encode]
    exact Nat.mod_eq_of_lt w.unit.ts.toNat_lt
  unfold rtpEnter
  rw [rtpH264SeqGap_encode h, hts]

end Link

/-- Two states that agree on sequence number and timestamp. -/
def SameHead (st st' : H264RtpState) : Prop :=
  st'.haveSeq = st.haveSeq ∧ st'.lastSeq = st.lastSeq ∧ st'.auHaveTs = st.auHaveTs ∧
    st'.auTs = st.auTs

theorem SameHead.directAppend {st st' : H264RtpState} (h : SameHead st st') (d : Decoder)
    (p : List UInt8) : SameHead st (rtpDirectAppend d st' p).2.1 := by
  unfold rtpDirectAppend
  simp only
  split
  · exact h
  split
  · exact h
  split <;> exact h

theorem SameHead.directFlush {st st' : H264RtpState} (h : SameHead st st') (d : Decoder) :
    SameHead st (rtpDirectFlush d st').2.1 := by
  unfold rtpDirectFlush
  simp only
  split
  · split
    · cases st'.auHasIdr <;> exact h
    · exact h
  · exact h

/-- The body of a handler leaves sequence number and timestamp to the prologue. -/
def BodyFrame {α : Type*}
    (body : α → H264RtpState → Bool → Bool → List UInt8 → α × H264RtpState × ℕ) : Prop :=
  ∀ s st seqGap marker payload, SameHead st (body s st seqGap marker payload).2.1

namespace Link

variable {α : Type*}
  {body : α → H264RtpState → Bool → Bool → List UInt8 → α × H264RtpState × ℕ}

theorem rtpNewTs_head (st : H264RtpState) (seqGap : Bool) (ts : ℕ) :
    (rtpNewTs st seqGap ts).haveSeq = st.haveSeq ∧ (rtpNewTs st seqGap ts).lastSeq = st.lastSeq ∧
      (rtpNewTs st seqGap ts).auHaveTs = true ∧ (rtpNewTs st seqGap ts).auTs = ts := by
  unfold rtpNewTs
  by_cases hnew : st.auHaveTs = false ∨ st.auTs ≠ ts
  · rw [if_pos hnew]
    by_cases hopen : st.auHaveTs = true ∧ 0 < st.auLen
    · simp [if_pos hopen, rtpAuReset]
    · simp [if_neg hopen]
  · rw [if_neg hnew]
    simp only [not_or, Bool.not_eq_false, ne_eq, Decidable.not_not] at hnew
    cases seqGap <;> simp [hnew]

/-- After the prologue the receiver knows the packet's number and timestamp. -/
theorem rtpEnter_head {l : Link α} (h : l.SeqInv) (w : WirePacket) :
    (rtpEnter l.st (w.encode l.sent)).1.haveSeq = true ∧
      (rtpEnter l.st (w.encode l.sent)).1.lastSeq = l.sent % 65536 ∧
      (rtpEnter l.st (w.encode l.sent)).1.auHaveTs = true ∧
      (rtpEnter l.st (w.encode l.sent)).1.auTs = w.unit.ts.toNat := by
  rw [rtpEnter_encode h]
  obtain ⟨e₁, e₂, e₃, e₄⟩ := rtpNewTs_head (if l.gap then
    { l.st with
      haveSeq := true, lastSeq := l.sent % 65536, fuActive := false, fuLen := 0,
      needIdr := true }
    else { l.st with haveSeq := true, lastSeq := l.sent % 65536 }) l.gap w.unit.ts.toNat
  refine ⟨e₁.trans ?_, e₂.trans ?_, e₃, e₄⟩ <;> split <;> rfl

/-- A delivery after which the state has the head that the prologue left. -/
theorem SeqInv.deliver {l : Link α} (h : l.SeqInv) {w : WirePacket} {s : α} {st : H264RtpState}
    (hsame : SameHead (rtpEnter l.st (w.encode l.sent)).1 st) :
    SeqInv ⟨s, st, l.sent + 1, some 0⟩ := by
  obtain ⟨e₁, e₂, -, -⟩ := rtpEnter_head h w
  obtain ⟨h₁, h₂, -, -⟩ := hsame
  refine ⟨h₁.trans e₁, ?_⟩
  intro n hn
  obtain rfl : 0 = n := by simpa using hn
  simp only [h₂.trans e₂]
  omega

theorem SeqInv.lose {l : Link α} (h : l.SeqInv) :
    SeqInv { l with sent := l.sent + 1, lost := l.lost.map (· + 1) } := by
  refine ⟨by simpa using h.haveSeq, ?_⟩
  intro n hn
  simp only [Option.mem_def, Option.map_eq_some_iff] at hn
  obtain ⟨m, hm, rfl⟩ := hn
  have hlast := h.lastSeq m hm
  simp only
  omega

/-- What a delivery leaves has the head that the prologue left. -/
theorem send_sameHead (hframe : BodyFrame body) {l : Link α} {w : WirePacket}
    (harr : w.packet.arrives = true) :
    SameHead (rtpEnter l.st (w.encode l.sent)).1 (l.send (rtpHandle body) w).st := by
  rw [send_of_arrives harr]
  simp only [rtpHandle_encode]
  split
  · exact ⟨rfl, rfl, rfl, rfl⟩
  · exact hframe _ _ _ _ _

theorem send_head (hframe : BodyFrame body) {l : Link α} (h : l.SeqInv) {w : WirePacket}
    (harr : w.packet.arrives = true) :
    (l.send (rtpHandle body) w).st.haveSeq = true ∧
      (l.send (rtpHandle body) w).st.lastSeq = l.sent % 65536 ∧
      (l.send (rtpHandle body) w).st.auHaveTs = true ∧
      (l.send (rtpHandle body) w).st.auTs = w.unit.ts.toNat := by
  obtain ⟨e₁, e₂, e₃, e₄⟩ := rtpEnter_head h w
  obtain ⟨h₁, h₂, h₃, h₄⟩ := send_sameHead hframe harr
  exact ⟨h₁.trans e₁, h₂.trans e₂, h₃.trans e₃, h₄.trans e₄⟩

theorem SeqInv.send (hframe : BodyFrame body) {l : Link α} (h : l.SeqInv) (w : WirePacket) :
    (l.send (rtpHandle body) w).SeqInv := by
  by_cases harr : w.packet.arrives = true
  · have hsame := send_sameHead (l := l) hframe harr
    rw [send_of_arrives harr] at hsame ⊢
    exact h.deliver hsame
  · have hlost : w.packet.arrives = false := by simpa using harr
    rw [send_of_lost hlost]
    exact h.lose

theorem SeqInv.run (hframe : BodyFrame body) {l : Link α} (h : l.SeqInv)
    (ws : List WirePacket) : (l.run (rtpHandle body) ws).SeqInv := by
  induction ws generalizing l with
  | nil => exact h
  | cons w ws ih => exact ih (h.send hframe w)

/-- When the last packet of a unit was delivered, the receiver has the unit's timestamp. -/
theorem run_unit_ts (hframe : BodyFrame body) {l : Link α} (h : l.SeqInv) (a : AccessUnit) :
    ∀ ps : List Packet, ps ≠ [] →
      (l.run (rtpHandle body) (wirePackets a ps)).lost = some 0 →
        (l.run (rtpHandle body) (wirePackets a ps)).st.auTs = a.ts.toNat := by
  intro ps
  induction ps generalizing l with
  | nil =>
    intro hne
    exact absurd rfl hne
  | cons p ps ih =>
    intro _ hlost
    rw [wirePackets_cons, run_cons] at hlost ⊢
    cases ps with
    | cons q ps => exact ih (h.send hframe _) (by simp) hlost
    | nil =>
      by_cases harr : p.arrives = true
      · exact (send_head hframe h (w := ⟨a, p, true⟩) harr).2.2.2
      · have hgone : p.arrives = false := by simpa using harr
        simp only [wirePackets, run_nil] at hlost
        rw [send_of_lost (w := ⟨a, p, _⟩) hgone] at hlost
        simp only [Option.map_eq_some_iff] at hlost
        obtain ⟨n, -, hn⟩ := hlost
        exact absurd hn (Nat.succ_ne_zero n)

/-- The receiver after `n` more losses. -/
def skip (l : Link α) (n : ℕ) : Link α :=
  { l with sent := l.sent + n, lost := l.lost.map (· + n) }

theorem skip_succ (l : Link α) (n : ℕ) :
    skip { l with sent := l.sent + 1, lost := l.lost.map (· + 1) } n = l.skip (n + 1) := by
  simp only [skip, Option.map_map, mk.injEq, true_and]
  refine ⟨by omega, ?_⟩
  congr 1
  funext k
  simp only [Function.comp_apply]
  omega

/-- A gap that shows: some losses, not a multiple of `65536` of them. -/
theorem gap_of_lost {l : Link α} {n : ℕ} (hlost : l.lost = some (n + 1)) {w : WirePacket}
    {ws : List WirePacket} (hvis : GapsVisible l.lost (w :: ws))
    (harr : w.packet.arrives = true) : l.gap = true := by
  have hn := hvis.1 harr (n + 1) (by simp [hlost])
  unfold gap gapSeen
  rw [hlost]
  simp only [ne_eq, decide_eq_true_eq]
  intro hzero
  exact absurd (hn hzero) (Nat.succ_ne_zero n)

/-- The state after the sequence check of the next delivery. -/
def checked (l : Link α) : H264RtpState :=
  { l.st with
    haveSeq := true
    lastSeq := l.sent % 65536
    fuActive := l.st.fuActive && !l.gap
    fuLen := if l.gap then 0 else l.st.fuLen
    needIdr := l.st.needIdr || l.gap }

/-- The state after the prologue, when the next delivery is a packet of `a`. -/
def entered (l : Link α) (a : AccessUnit) : H264RtpState := rtpNewTs l.checked l.gap a.ts.toNat

theorem rtpEnter_eq {l : Link α} (h : l.SeqInv) (w : WirePacket) :
    rtpEnter l.st (w.encode l.sent) = (l.entered w.unit, l.gap) := by
  have hchecked : (if l.gap then
        { l.st with
          haveSeq := true, lastSeq := l.sent % 65536, fuActive := false, fuLen := 0,
          needIdr := true }
      else { l.st with haveSeq := true, lastSeq := l.sent % 65536 }) = l.checked := by
    unfold checked
    cases l.gap <;> simp
  rw [rtpEnter_encode h, hchecked]
  rfl

/-- What the prologue does: the unit goes on (a gap in it marks it bad), an unfinished unit is
discarded, or a new unit starts where none was open. -/
theorem entered_cases (l : Link α) (a : AccessUnit) :
    (l.st.auHaveTs = true ∧ l.st.auTs = a.ts.toNat ∧
        l.entered a = { l.checked with auBad := l.st.auBad || l.gap }) ∨
      (l.st.auHaveTs = true ∧ l.st.auTs ≠ a.ts.toNat ∧ 0 < l.st.auLen ∧
        l.entered a =
          { rtpAuReset { l.checked with needIdr := true } with
            auHaveTs := true, auTs := a.ts.toNat }) ∨
      ((l.st.auHaveTs = false ∨ l.st.auTs ≠ a.ts.toNat ∧ l.st.auLen = 0) ∧
        l.entered a = { l.checked with auHaveTs := true, auTs := a.ts.toNat }) := by
  unfold entered rtpNewTs
  cases hopen : l.st.auHaveTs with
  | false =>
    have hclosed : l.checked.auHaveTs = false := hopen
    exact .inr (.inr ⟨.inl rfl, by simp [hclosed]⟩)
  | true =>
    have hchk : l.checked.auHaveTs = true := hopen
    by_cases hts : l.st.auTs = a.ts.toNat
    · have hsame : ¬ (l.checked.auHaveTs = false ∨ l.checked.auTs ≠ a.ts.toNat) := by
        rintro (hclosed | hnew)
        · exact Bool.false_ne_true (hclosed.symm.trans hchk)
        · exact hnew hts
      refine .inl ⟨rfl, hts, ?_⟩
      rw [if_neg hsame]
      cases l.gap with
      | true => simp
      | false =>
        rw [Bool.or_false]
        rfl
    · have hnew : l.checked.auHaveTs = false ∨ l.checked.auTs ≠ a.ts.toNat := .inr hts
      rw [if_pos hnew]
      by_cases hzero : l.st.auLen = 0
      · have hnone : ¬ (l.checked.auHaveTs = true ∧ 0 < l.checked.auLen) := by
          rintro ⟨-, hpos⟩
          exact Nat.ne_of_gt hpos hzero
        exact .inr (.inr ⟨.inr ⟨hts, hzero⟩, by rw [if_neg hnone]⟩)
      · have hpos : 0 < l.checked.auLen := Nat.pos_of_ne_zero hzero
        exact .inr (.inl ⟨rfl, hts, hpos, by rw [if_pos ⟨hchk, hpos⟩]⟩)

end Link

/-- A receiver that stages into the ring `bytes`, before or between packets. -/
structure DirectInv (bs : BitstreamMem) (l : Link Decoder) (bytes : List UInt8) : Prop where
  staged : Staged bs l.out l.st bytes
  seq : l.SeqInv
  haveTs : l.st.auHaveTs = l.lost.isSome
  opened : l.st.auHaveTs = false → l.st.auLen = 0

/-- The prologue keeps what is staged, or drops all of it. -/
theorem DirectInv.enter {bs : BitstreamMem} {l : Link Decoder} {bytes : List UInt8}
    (h : DirectInv bs l bytes) (w : WirePacket) :
    ∃ bytes₁, Staged bs l.out (rtpEnter l.st (w.encode l.sent)).1 bytes₁ ∧
      ((l.st.auHaveTs = true ∧ l.st.auTs = w.unit.ts.toNat ∧ bytes₁ = bytes ∧
          (rtpEnter l.st (w.encode l.sent)).1 =
            { l.checked with auBad := l.st.auBad || l.gap }) ∨
        ((l.st.auHaveTs = false ∨ l.st.auTs ≠ w.unit.ts.toNat) ∧ bytes₁ = [] ∧
          ((rtpEnter l.st (w.encode l.sent)).1 =
              { rtpAuReset { l.checked with needIdr := true } with
                auHaveTs := true, auTs := w.unit.ts.toNat } ∨
            (l.st.auLen = 0 ∧ (rtpEnter l.st (w.encode l.sent)).1 =
              { l.checked with auHaveTs := true, auTs := w.unit.ts.toNat })))) := by
  rw [Link.rtpEnter_eq h.seq w]
  rcases l.entered_cases w.unit with ⟨hopen, hts, heq⟩ | ⟨hopen, hts, hpos, heq⟩ | ⟨hnew, heq⟩
  · refine ⟨bytes, ?_, .inl ⟨hopen, hts, rfl, heq⟩⟩
    rw [heq]
    exact h.staged.setFlags rfl
  · refine ⟨[], ?_, .inr ⟨.inr hts, rfl, .inl heq⟩⟩
    rw [heq]
    exact h.staged.reset rfl
  · have hzero : l.st.auLen = 0 := by
      rcases hnew with hclosed | ⟨-, hzero⟩
      · exact h.opened hclosed
      · exact hzero
    refine ⟨[], ?_, .inr ⟨?_, rfl, .inr ⟨hzero, heq⟩⟩⟩
    · rw [heq]
      exact h.staged.reset hzero
    · rcases hnew with hclosed | ⟨hts, -⟩
      · exact .inl hclosed
      · exact .inr hts

/-- Losses do not touch the receiver. -/
theorem DirectInv.lose {bs : BitstreamMem} {l : Link Decoder} {bytes : List UInt8}
    (h : DirectInv bs l bytes) (hseq : Link.SeqInv
      { l with sent := l.sent + 1, lost := l.lost.map (· + 1) }) :
    DirectInv bs { l with sent := l.sent + 1, lost := l.lost.map (· + 1) } bytes :=
  ⟨h.staged, hseq, by simpa using h.haveTs, h.opened⟩

/-- A freshly opened decoder behind a zeroed receiver. -/
def directStart (bs : BitstreamMem) (mem : ℕ → UInt8) (sched : List ℕ) (first : ℕ) :
    Link Decoder :=
  ⟨vpuDecOpenRing bs.phyAddr streamBufSize mem sched, {}, first, none⟩

theorem DirectInv.start (bs : BitstreamMem) (mem : ℕ → UInt8) (sched : List ℕ) (first : ℕ) :
    DirectInv bs (directStart bs mem sched first) [] :=
  ⟨⟨[], RingInv.decOpen mem sched (by decide) bs.below, rfl⟩, ⟨rfl, by simp [directStart]⟩,
    rfl, fun _ => rfl⟩

end Stream
end ToonVpu
