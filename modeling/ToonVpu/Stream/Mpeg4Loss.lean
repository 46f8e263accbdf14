import Mathlib.Data.List.Sublists
import ToonVpu.Stream.Mpeg4

/-!
# Mpeg4Loss — MPEG-4 streams over a lossy network

Two questions about `handle_rtp_mpeg4_direct`, over every stream of a well-formed sender and
every choice of lost packets.

* Does it commit whole access units only?  It does as long as no unit is received from its second
  packet or a later one up to its end, and the VOP filter does not split a unit.
* Does it, while it waits for an I-VOP, keep P- and B-VOPs from the ring?  It does as long as each
  of their packets shows a VOP start code.

Both conditions are needed: the streams at the end of each section break them.
-/

namespace ToonVpu
namespace Stream

open Foundation
open Lib

/-! ## Whole access units -/

/-- What the handler keeps of some packets that all arrive. -/
def keptAll (need : Bool) : List Packet → List UInt8
  | [] => []
  | p :: ps => kept need p.payload ++ keptAll (waitsAfter need p.payload) ps

/-- Whether the handler waits for an I-VOP when it looks at the payload of the next packet, one
of the unit `a`: it waited before, a gap shows, or another unit is unfinished. -/
def needAt (l : Link Decoder) (a : AccessUnit) : Bool :=
  l.st.needIdr || l.gap ||
    (l.st.auHaveTs && decide (l.st.auTs ≠ a.ts.toNat) && decide (0 < l.st.auLen))

/-- Whenever exactly an end `arr` of the unit arrives (all of it, or all but its first packets),
the VOP filter keeps the bytes of the whole unit, or none. -/
def KeepsWholeOrNone (l : Link Decoder) (a : AccessUnit) : Prop :=
  ∀ gone arr, a.packets = gone ++ arr → arr ≠ [] → (∀ p ∈ gone, p.arrives = false) →
    (∀ p ∈ arr, p.arrives = true) →
      keptAll (needAt (l.skip gone.length) a) arr = a.bytes ∨
        keptAll (needAt (l.skip gone.length) a) arr = []

/-- Each unit is committed whole, in one piece, or not at all. -/
def CommitsWholeUnits (l : Link Decoder) (units : List AccessUnit) : Prop :=
  ∀ before a after, units = before ++ a :: after →
    commitsOf (mpeg4Run l (wire (before ++ [a]))) = commitsOf (mpeg4Run l (wire before)) ∨
      commitsOf (mpeg4Run l (wire (before ++ [a]))) =
        commitsOf (mpeg4Run l (wire before)) ++ [a.bytes]

section Units

variable {bs : BitstreamMem} {l : Link Decoder} {bytes : List UInt8} {a : AccessUnit}

/-- The waiting flag after the prologue, whichever packet of the unit comes next. -/
theorem needAt_eq (hseq : l.SeqInv) (p : Packet) (m : Bool) :
    (rtpEnter l.st (WirePacket.encode ⟨a, p, m⟩ l.sent)).1.needIdr = needAt l a := by
  unfold needAt
  rw [Link.rtpEnter_eq hseq]
  rcases l.entered_cases a with
    ⟨-, hts, heq⟩ | ⟨hopen, hts, hpos, heq⟩ | ⟨hnew, heq⟩
  · rw [heq]
    simp [Link.checked, hts]
  · rw [heq]
    simp [rtpAuReset, hopen, hts, hpos]
  · rw [heq]
    rcases hnew with hclosed | ⟨-, hzero⟩
    · simp [Link.checked, hclosed]
    · simp [Link.checked, hzero]

/-- Sending the packets of a unit, one packet and then the others. -/
theorem mpeg4Run_cons (l : Link Decoder) (p : Packet) (ps : List Packet) :
    mpeg4Run l (wirePackets a (p :: ps)) =
      mpeg4Run (mpeg4Send l ⟨a, p, ps.isEmpty⟩) (wirePackets a ps) := by
  rw [wirePackets_cons]
  rfl

theorem gapsVisible_cons {p : Packet} {ps : List Packet}
    (hvis : GapsVisible l.lost (wirePackets a (p :: ps))) :
    GapsVisible (mpeg4Send l ⟨a, p, ps.isEmpty⟩).lost (wirePackets a ps) := by
  rw [wirePackets_cons] at hvis
  rw [show (mpeg4Send l ⟨a, p, ps.isEmpty⟩).lost = _ from Link.send_lost_eq _ _ _]
  exact hvis.2

/-- A lost packet of a unit leaves everything but the counters. -/
theorem mpeg4Send_lost {p : Packet} (hgone : p.arrives = false) (m : Bool) :
    mpeg4Send l ⟨a, p, m⟩ = { l with sent := l.sent + 1, lost := l.lost.map (· + 1) } :=
  Link.send_of_lost hgone

/-- A delivered packet of a unit that continues, or one that starts it. -/
theorem DirectInv.enter_unit (h : DirectInv bs l bytes) (p : Packet) (m : Bool) :
    ∃ bytes₁, Staged bs l.out (rtpEnter l.st (WirePacket.encode ⟨a, p, m⟩ l.sent)).1 bytes₁ ∧
      ((l.st.auHaveTs = true ∧ l.st.auTs = a.ts.toNat ∧ bytes₁ = bytes ∧
          (rtpEnter l.st (WirePacket.encode ⟨a, p, m⟩ l.sent)).1 =
            { l.checked with auBad := l.st.auBad || l.gap }) ∨
        ((l.st.auHaveTs = true → l.st.auTs ≠ a.ts.toNat) ∧ bytes₁ = [])) := by
  obtain ⟨bytes₁, hs₁, hsame | ⟨hnew, hnil, -⟩⟩ := h.enter ⟨a, p, m⟩
  · exact ⟨bytes₁, hs₁, .inl hsame⟩
  · refine ⟨bytes₁, hs₁, .inr ⟨?_, hnil⟩⟩
    intro hopen
    rcases hnew with hclosed | hdiff
    · exact absurd (hclosed.symm.trans hopen) Bool.false_ne_true
    · exact hdiff

/-- A delivery that leaves the unit bad commits nothing, and neither does what follows it if a
bad unit commits nothing. -/
theorem Mpeg4Outcome.bad_rest {p : Packet} {ps : List Packet} {bytes' : List UInt8}
    (hout : Mpeg4Outcome bs l ⟨a, p, ps.isEmpty⟩ true bytes')
    (hrest : DirectInv bs (mpeg4Send l ⟨a, p, ps.isEmpty⟩) bytes' →
      (mpeg4Send l ⟨a, p, ps.isEmpty⟩).st.auBad = true →
        commitsOf (mpeg4Run (mpeg4Send l ⟨a, p, ps.isEmpty⟩) (wirePackets a ps)) =
          commitsOf (mpeg4Send l ⟨a, p, ps.isEmpty⟩)) :
    commitsOf (mpeg4Run (mpeg4Send l ⟨a, p, ps.isEmpty⟩) (wirePackets a ps)) = commitsOf l := by
  by_cases hno : p.payload = [] ∨ ps.isEmpty = false
  · obtain ⟨h', hst, hcommits⟩ := hout.stay hno
    exact (hrest h' (by rw [hst]; rfl)).trans hcommits
  · have hyes : p.payload ≠ [] ∧ ps.isEmpty = true := by simpa using hno
    obtain ⟨-, -, hcommits⟩ := hout.flush hyes
    obtain rfl : ps = [] := List.isEmpty_iff.1 hyes.2
    show commitsOf (mpeg4Send l ⟨a, p, true⟩) = commitsOf l
    simpa using hcommits

/-- Nothing more of a damaged unit is committed: it is marked bad, or the next delivery will mark
it. -/
theorem mpeg4_unit_bad (ps : List Packet) :
    ∀ {l : Link Decoder} {bytes : List UInt8}, DirectInv bs l bytes →
      l.st.auHaveTs = true → l.st.auTs = a.ts.toNat →
      (l.st.auBad = true ∨ ∃ n, l.lost = some (n + 1)) →
      GapsVisible l.lost (wirePackets a ps) →
        commitsOf (mpeg4Run l (wirePackets a ps)) = commitsOf l := by
  induction ps with
  | nil => intro l bytes _ _ _ _ _; rfl
  | cons p ps ih =>
    intro l bytes h hopen hts hbad hvis
    have hvis' := gapsVisible_cons hvis
    rw [mpeg4Run_cons]
    by_cases harr : p.arrives = true
    · obtain ⟨-, -, hopen', hts'⟩ :=
        Link.send_head mpeg4Body_frame h.seq (w := ⟨a, p, ps.isEmpty⟩) harr
      obtain ⟨bytes₁, hs₁, hcase⟩ := h.enter_unit p ps.isEmpty
      -- The timestamp is the unit's, so the prologue marks the unit bad.
      have hbad₁ : (rtpEnter l.st (WirePacket.encode ⟨a, p, ps.isEmpty⟩ l.sent)).1.auBad =
          true := by
        rcases hcase with ⟨-, -, -, heq⟩ | ⟨hdiff, -⟩
        · rw [heq]
          rcases hbad with hb | ⟨n, hlost⟩
          · simp [hb]
          · rw [wirePackets_cons] at hvis
            simp [Link.gap_of_lost hlost hvis harr]
        · exact absurd hts (hdiff hopen)
      obtain ⟨bad, bytes', hout, halt⟩ := mpeg4_deliver h harr hs₁
      obtain rfl : bad = true := by
        rcases halt with ⟨hb, -⟩ | ⟨hb, -⟩
        · rw [hb, hbad₁]
        · exact hb
      exact hout.bad_rest fun h' hb => ih h' hopen' hts' (.inl hb) hvis'
    · have hgone : p.arrives = false := by simpa using harr
      have h' := h.mpeg4Lose (w := ⟨a, p, ps.isEmpty⟩) hgone
      have heq := mpeg4Send_lost (l := l) (a := a) hgone ps.isEmpty
      rw [heq] at h' hvis' ⊢
      refine ih h' hopen hts ?_ hvis'
      rcases hbad with hb | ⟨n, hlost⟩
      · exact .inl hb
      · exact .inr ⟨n + 1, by simp [hlost]⟩

/-- One more packet of a unit arrives behind `bytes₁`, and the rest behaves as `ih` says. -/
theorem mpeg4_unit_rest {p : Packet} {ps : List Packet} {bytes₁ : List UInt8}
    (ih : ∀ {l : Link Decoder} {bytes : List UInt8}, DirectInv bs l bytes →
      l.st.auHaveTs = true → l.st.auTs = a.ts.toNat → l.lost = some 0 →
      GapsVisible l.lost (wirePackets a ps) →
        commitsOf (mpeg4Run l (wirePackets a ps)) = commitsOf l ∨
          ((∀ p ∈ ps, p.arrives = true) ∧ bytes ++ keptAll l.st.needIdr ps ≠ [] ∧
            commitsOf (mpeg4Run l (wirePackets a ps)) =
              commitsOf l ++ [bytes ++ keptAll l.st.needIdr ps]))
    (h : DirectInv bs l bytes) (harr : p.arrives = true)
    (hs₁ : Staged bs l.out
      (rtpEnter l.st (WirePacket.encode ⟨a, p, ps.isEmpty⟩ l.sent)).1 bytes₁)
    (hvis : GapsVisible (mpeg4Send l ⟨a, p, ps.isEmpty⟩).lost (wirePackets a ps)) :
    commitsOf (mpeg4Run (mpeg4Send l ⟨a, p, ps.isEmpty⟩) (wirePackets a ps)) = commitsOf l ∨
      ((∀ q ∈ p :: ps, q.arrives = true) ∧
        bytes₁ ++ keptAll (rtpEnter l.st
          (WirePacket.encode ⟨a, p, ps.isEmpty⟩ l.sent)).1.needIdr (p :: ps) ≠ [] ∧
        commitsOf (mpeg4Run (mpeg4Send l ⟨a, p, ps.isEmpty⟩) (wirePackets a ps)) =
          commitsOf l ++ [bytes₁ ++ keptAll (rtpEnter l.st
            (WirePacket.encode ⟨a, p, ps.isEmpty⟩ l.sent)).1.needIdr (p :: ps)]) := by
  obtain ⟨-, -, hopen', hts'⟩ :=
    Link.send_head mpeg4Body_frame h.seq (w := ⟨a, p, ps.isEmpty⟩) harr
  have hzero : (mpeg4Send l ⟨a, p, ps.isEmpty⟩).lost = some 0 := by
    rw [show (mpeg4Send l ⟨a, p, ps.isEmpty⟩).lost = _ from Link.send_lost_eq _ _ _]
    simp [lostAfter, harr]
  obtain ⟨bad, bytes', hout, halt⟩ := mpeg4_deliver h harr hs₁
  generalize hneed : (rtpEnter l.st
    (WirePacket.encode ⟨a, p, ps.isEmpty⟩ l.sent)).1.needIdr = need at halt ⊢
  rcases halt with ⟨-, hbytes'⟩ | ⟨rfl, -⟩
  · -- The packet is in the middle of the unit, or it ends it and the unit is flushed.
    by_cases hno : p.payload = [] ∨ ps.isEmpty = false
    · obtain ⟨h', hst, hcommits⟩ := hout.stay hno
      have hneed' : (mpeg4Send l ⟨a, p, ps.isEmpty⟩).st.needIdr = waitsAfter need p.payload := by
        rw [hst]
        simp [mpeg4Flags, hneed]
      rcases ih h' hopen' hts' hzero hvis with hsame | ⟨hall, hne, hmore⟩
      · exact .inl (hsame.trans hcommits)
      · have hkeep : bytes' ++ keptAll (waitsAfter need p.payload) ps =
            bytes₁ ++ keptAll need (p :: ps) := by
          rw [hbytes', keptAll, List.append_assoc]
        rw [hneed', hkeep] at hne hmore
        rw [hcommits] at hmore
        exact .inr ⟨by simpa [harr] using hall, hne, hmore⟩
    · have hyes : p.payload ≠ [] ∧ ps.isEmpty = true := by simpa using hno
      obtain ⟨-, -, hcommits⟩ := hout.flush hyes
      obtain rfl : ps = [] := List.isEmpty_iff.1 hyes.2
      have hkeep : bytes' = bytes₁ ++ keptAll need [p] := by
        rw [hbytes', keptAll, keptAll, List.append_nil]
      by_cases hok : bytes' ≠ [] ∧ bad = false
      · rw [if_pos hok] at hcommits
        rw [hkeep] at hok hcommits
        exact .inr ⟨by simpa using harr, hok.1, hcommits⟩
      · rw [if_neg hok, List.append_nil] at hcommits
        exact .inl hcommits
  · -- The packet did not fit, and the unit is bad.
    exact .inl (hout.bad_rest fun h' hb => mpeg4_unit_bad ps h' hopen' hts' (.inl hb) hvis)

/-- The rest of a unit whose packets so far all arrived: it is committed with all of the rest, or
not at all. -/
theorem mpeg4_unit_clean (ps : List Packet) :
    ∀ {l : Link Decoder} {bytes : List UInt8}, DirectInv bs l bytes →
      l.st.auHaveTs = true → l.st.auTs = a.ts.toNat → l.lost = some 0 →
      GapsVisible l.lost (wirePackets a ps) →
        commitsOf (mpeg4Run l (wirePackets a ps)) = commitsOf l ∨
          ((∀ p ∈ ps, p.arrives = true) ∧ bytes ++ keptAll l.st.needIdr ps ≠ [] ∧
            commitsOf (mpeg4Run l (wirePackets a ps)) =
              commitsOf l ++ [bytes ++ keptAll l.st.needIdr ps]) := by
  induction ps with
  | nil => intro l bytes _ _ _ _ _; exact .inl rfl
  | cons p ps ih =>
    intro l bytes h hopen hts hlost hvis
    have hvis' := gapsVisible_cons hvis
    rw [mpeg4Run_cons]
    by_cases harr : p.arrives = true
    · have hgap : l.gap = false := by simp [Link.gap, gapSeen, hlost]
      obtain ⟨bytes₁, hs₁, hcase⟩ := h.enter_unit p ps.isEmpty
      obtain ⟨rfl, hneed₁⟩ : bytes₁ = bytes ∧
          (rtpEnter l.st (WirePacket.encode ⟨a, p, ps.isEmpty⟩ l.sent)).1.needIdr =
            l.st.needIdr := by
        rcases hcase with ⟨-, -, hb, heq⟩ | ⟨hdiff, -⟩
        · refine ⟨hb, ?_⟩
          rw [heq]
          simp [Link.checked, hgap]
        · exact absurd hts (hdiff hopen)
      have hrest := mpeg4_unit_rest ih h harr hs₁ hvis'
      rwa [hneed₁] at hrest
    · have hgone : p.arrives = false := by simpa using harr
      have h' := h.mpeg4Lose (w := ⟨a, p, ps.isEmpty⟩) hgone
      have heq := mpeg4Send_lost (l := l) (a := a) hgone ps.isEmpty
      rw [heq] at h' hvis' ⊢
      exact .inl (mpeg4_unit_bad ps h' hopen hts (.inr ⟨0, by simp [hlost]⟩) hvis')

/-- A unit from its first packet on: nothing of it is committed, or exactly its last packets
arrived and what the filter keeps of them is committed. -/
theorem mpeg4_unit_start (ps : List Packet) :
    ∀ {l : Link Decoder} {bytes : List UInt8}, DirectInv bs l bytes →
      (l.lost = some 0 → l.st.auTs ≠ a.ts.toNat) →
      GapsVisible l.lost (wirePackets a ps) →
        commitsOf (mpeg4Run l (wirePackets a ps)) = commitsOf l ∨
          ∃ gone arr, ps = gone ++ arr ∧ arr ≠ [] ∧ (∀ p ∈ gone, p.arrives = false) ∧
            (∀ p ∈ arr, p.arrives = true) ∧ keptAll (needAt (l.skip gone.length) a) arr ≠ [] ∧
            commitsOf (mpeg4Run l (wirePackets a ps)) =
              commitsOf l ++ [keptAll (needAt (l.skip gone.length) a) arr] := by
  -- By induction on the packets, up to the first one that arrives.
  induction ps with
  | nil => intro l bytes _ _ _; exact .inl rfl
  | cons p ps ih =>
    intro l bytes h hfirst hvis
    have hvis' := gapsVisible_cons hvis
    rw [mpeg4Run_cons]
    by_cases harr : p.arrives = true
    · obtain ⟨bytes₁, hs₁, ⟨hopen, hts, -, heq⟩ | ⟨-, rfl⟩⟩ := h.enter_unit p ps.isEmpty
      · -- The timestamp was seen before, so packets were lost in between, and the gap shows.
        have hgap : l.gap = true := by
          have hhave := h.haveTs
          rw [hopen] at hhave
          rw [wirePackets_cons] at hvis
          cases hlost : l.lost with
          | none => simp [hlost] at hhave
          | some n =>
            cases n with
            | zero => exact absurd hts (hfirst hlost)
            | succ n => exact Link.gap_of_lost hlost hvis harr
        obtain ⟨-, -, hopen', hts'⟩ :=
          Link.send_head mpeg4Body_frame h.seq (w := ⟨a, p, ps.isEmpty⟩) harr
        obtain ⟨bad, bytes', hout, halt⟩ := mpeg4_deliver h harr hs₁
        obtain rfl : bad = true := by
          rcases halt with ⟨hb, -⟩ | ⟨hb, -⟩
          · rw [hb, heq]
            simp [hgap]
          · exact hb
        exact .inl (hout.bad_rest fun h' hb => mpeg4_unit_bad ps h' hopen' hts' (.inl hb) hvis')
      · have hrest := mpeg4_unit_rest (mpeg4_unit_clean ps) h harr hs₁ hvis'
        rw [needAt_eq h.seq, List.nil_append] at hrest
        rcases hrest with hsame | ⟨hall, hne, hmore⟩
        · exact .inl hsame
        · have hskip : l.skip 0 = l := by simp [Link.skip]
          exact .inr ⟨[], p :: ps, rfl, by simp, by simp, hall,
            by simpa [hskip] using hne, by simpa [hskip] using hmore⟩
    · -- The packet is lost, and the unit starts behind it, if at all.
      have hgone : p.arrives = false := by simpa using harr
      have h' := h.mpeg4Lose (w := ⟨a, p, ps.isEmpty⟩) hgone
      have heq := mpeg4Send_lost (l := l) (a := a) hgone ps.isEmpty
      rw [heq] at h' hvis' ⊢
      rcases ih h' (by simp) hvis' with hsame | ⟨gone, arr, hps, hne, hlost, hall, hkept, hmore⟩
      · exact .inl hsame
      · rw [Link.skip_succ] at hkept hmore
        refine .inr ⟨p :: gone, arr, by rw [hps]; rfl, hne, ?_, hall, hkept, hmore⟩
        intro q hq
        rcases List.mem_cons.1 hq with rfl | hq
        · exact hgone
        · exact hlost q hq

/-- After a run over whole units, a delivery of the last packet shows in the timestamp. -/
theorem mpeg4_boundary {units : List AccessUnit} (h : DirectInv bs l bytes) (hstart : l.lost = none)
    (hdistinct : (units ++ [a]).IsChain fun a b => a.ts ≠ b.ts) :
    (mpeg4Run l (wire units)).lost = some 0 → (mpeg4Run l (wire units)).st.auTs ≠ a.ts.toNat := by
  intro hlost hts
  rcases List.eq_nil_or_concat units with rfl | ⟨before, b, rfl⟩
  · have hnone : (mpeg4Run l (wire [])).lost = none := hstart
    rw [hnone] at hlost
    exact Option.some_ne_none 0 hlost.symm
  · rw [List.concat_eq_append] at *
    have hdiff : b.ts ≠ a.ts := by
      rw [List.append_assoc, List.isChain_append] at hdistinct
      have hpair := hdistinct.2.1
      simpa using hpair
    rw [wire_concat] at hlost hts
    have hrun : mpeg4Run l (wire before ++ b.wire) =
        mpeg4Run (mpeg4Run l (wire before)) b.wire := Link.run_append _ _ _ _
    rw [hrun] at hlost hts
    obtain ⟨bytes', h'⟩ := h.mpeg4Run (wire before)
    have hb := Link.run_unit_ts mpeg4Body_frame h'.seq b b.packets b.nonempty hlost
    exact hdiff (UInt32.toNat_inj.1 (hb.symm.trans hts))

/-- Every unit is committed whole or not at all, in every stream whose losses show in the
sequence numbers and in which the filter never splits an end of a unit that arrives. -/
theorem mpeg4_commits_whole_units (bs : BitstreamMem) (mem : ℕ → UInt8) (sched : List ℕ)
    (first : ℕ) (s : Sender)
    (hvisible : GapsVisible none (wire s.units))
    (hkeep : ∀ before a after, s.units = before ++ a :: after →
      KeepsWholeOrNone (mpeg4Run (directStart bs mem sched first) (wire before)) a) :
    CommitsWholeUnits (directStart bs mem sched first) s.units := by
  intro before a after hsplit
  have h₀ := DirectInv.start bs mem sched first
  obtain ⟨bytes, h⟩ := h₀.mpeg4Run (wire before)
  have hwire : wire s.units = wire before ++ (a.wire ++ wire after) := by
    rw [hsplit]
    simp [wire]
  rw [hwire] at hvisible
  have hvis := hvisible.append.2.append.1
  have hlost : (mpeg4Run (directStart bs mem sched first) (wire before)).lost =
    lostAfter none (wire before) := Link.run_lost_eq _ _ _
  rw [← hlost] at hvis
  have hchain : (before ++ [a]).IsChain fun a b => a.ts ≠ b.ts := by
    have hd := s.distinct
    rw [hsplit, ← List.singleton_append, ← List.append_assoc, List.isChain_append] at hd
    exact hd.1
  have hunit := mpeg4_unit_start a.packets h (mpeg4_boundary h₀ rfl hchain) hvis
  rw [wire_concat]
  have hrun : mpeg4Run (directStart bs mem sched first) (wire before ++ a.wire) =
    mpeg4Run (mpeg4Run (directStart bs mem sched first) (wire before)) (wirePackets a a.packets) :=
    Link.run_append _ _ _ _
  rw [hrun]
  rcases hunit with hsame | ⟨gone, arr, hps, hne, hgone, hall, hkept, hmore⟩
  · exact .inl hsame
  · rcases hkeep before a after hsplit gone arr hps hne hgone hall with hwhole | hnone
    · exact .inr (hmore.trans (by rw [hwhole]))
    · exact absurd hnone hkept

end Units

/-- An I-VOP in one packet, and a P-VOP whose second packet is lost: the first is committed. -/
theorem mpeg4_commits_whole_units_tail_lost :
    ∃ s : Sender, s.units.length = 2 ∧
      CommitsWholeUnits (directStart ⟨4096, by decide⟩ (fun _ => 0) [] 65535) s.units ∧
      commitsOf (mpeg4Run (directStart ⟨4096, by decide⟩ (fun _ => 0) [] 65535) (wire s.units)) =
        [[0, 0, 1, 0xb6, 0x10]] := by
  let u : AccessUnit := { ts := 1, packets := [{ payload := [0, 0, 1, 0xb6, 0x10] }] }
  let v : AccessUnit :=
    { ts := 2, packets := [{ payload := [0, 0, 1, 0xb6, 0x50] }, { payload := [9], arrives := false }] }
  let s : Sender := { units := [u, v], distinct := by simp [u, v] }
  refine ⟨s, rfl, ?_, by decide +kernel⟩
  apply mpeg4_commits_whole_units
  · simp [s, u, v, wire, AccessUnit.wire, wirePackets, GapsVisible, lostAfter]
  · intro before a after hsplit gone arr hps hne hgone hall
    have hcases : a = u ∧ before = [] ∨ a = v := by
      rcases before with _ | ⟨b, _ | ⟨c, rest⟩⟩
      · simp only [s, List.nil_append, List.cons.injEq] at hsplit
        exact .inl ⟨hsplit.1.symm, rfl⟩
      · simp only [s, List.cons_append, List.nil_append, List.cons.injEq] at hsplit
        exact .inr hsplit.2.1.symm
      · have hlen := congrArg List.length hsplit
        simp [s] at hlen
    rcases hcases with ⟨rfl, rfl⟩ | rfl
    · -- The only packet arrives.
      have hnil : gone = [] := by
        rcases gone with _ | ⟨p, gone⟩
        · rfl
        · have hp : p = { payload := [0, 0, 1, 0xb6, 0x10] } := by
            simp only [u, List.cons_append, List.cons.injEq] at hps
            exact hps.1.symm
          have hlost := hgone p (by simp)
          simp [hp] at hlost
      subst hnil
      rw [List.nil_append] at hps
      rw [← hps]
      exact .inl (by decide +kernel)
    · -- The last packet is lost, so no end of the unit arrives.
      have hlast : arr.getLast? = v.packets.getLast? := by
        rw [hps, List.getLast?_append_of_ne_nil _ hne]
      rw [List.getLast?_eq_some_getLast hne] at hlast
      have hmem := hall _ (List.getLast_mem hne)
      simp only [v, List.getLast?_cons_cons, List.getLast?_singleton, Option.some.injEq] at hlast
      rw [hlast] at hmem
      exact absurd hmem Bool.false_ne_true

/-- A P-VOP whose first packet is lost: its second packet is committed alone. -/
theorem mpeg4_commits_tail :
    ¬ ∀ (bs : BitstreamMem) (mem : ℕ → UInt8) (sched : List ℕ) (first : ℕ) (s : Sender),
      CommitsWholeUnits (directStart bs mem sched first) s.units := by
  intro hall
  let u : AccessUnit := { ts := 1, packets := [{ payload := [0, 0, 1, 0xb6, 0x10] }] }
  let v : AccessUnit :=
    { ts := 2, packets := [{ payload := [0, 0, 1, 0xb6, 0x50], arrives := false }, { payload := [9] }] }
  have hunits := hall ⟨4096, by decide⟩ (fun _ => 0) [] 0
    { units := [u, v], distinct := by simp [u, v] } [u] v [] rfl
  have hcommits : commitsOf (mpeg4Run (directStart ⟨4096, by decide⟩ (fun _ => 0) [] 0)
      (wire ([u] ++ [v]))) = [[0, 0, 1, 0xb6, 0x10], [9]] := by decide +kernel
  have hbefore : commitsOf (mpeg4Run (directStart ⟨4096, by decide⟩ (fun _ => 0) [] 0)
      (wire [u])) = [[0, 0, 1, 0xb6, 0x10]] := by decide +kernel
  rw [hcommits, hbefore] at hunits
  revert hunits
  decide

/-! ## Waiting for an I-VOP -/

/-- The payload has the start code of an I-VOP somewhere. -/
def carriesIVop : List UInt8 → Bool
  | a :: b :: c :: d :: e :: rest =>
    decide (a = 0 ∧ b = 0 ∧ c = 1 ∧ d = 0xb6 ∧ e.toNat / 64 = 0) ||
      carriesIVop (b :: c :: d :: e :: rest)
  | _ => false

/-- The unit's VOP is not an I-VOP: the first start code in its bytes, however they are cut into
packets, is that of another type. -/
def NonIVop (a : AccessUnit) : Prop :=
  mpeg4PayloadHasVop a.bytes = true ∧ mpeg4PayloadHasIVop a.bytes = false

instance (a : AccessUnit) : Decidable (NonIVop a) := inferInstanceAs (Decidable (_ ∧ _))

/-- One packet, on the losses since the last delivery and on whether a gap was seen with no
I-VOP start code since. -/
def waitStep (x : Option ℕ × Bool) (w : WirePacket) : Option ℕ × Bool :=
  (lostAfter x.1 [w],
    if w.packet.arrives then (x.2 || gapSeen x.1) && !carriesIVop w.packet.payload else x.2)

/-- A gap was seen, and no I-VOP start code since. -/
def waiting (ws : List WirePacket) : Bool := (ws.foldl waitStep (none, false)).2

/-- The bytes are the payloads of some of the packets that arrived, none of a P- or B-VOP. -/
def FromOthers (ws : List WirePacket) (bytes : List UInt8) : Prop :=
  ∃ qs : List WirePacket, qs.Sublist ws ∧
    (∀ q ∈ qs, q.packet.arrives = true ∧ ¬ NonIVop q.unit) ∧
    bytes = qs.flatMap fun q => q.packet.payload

/-- While waiting, no byte of a P- or B-VOP is committed. -/
def WaitsForIVop (l : Link Decoder) (ws : List WirePacket) : Prop :=
  ∀ before w after, ws = before ++ w :: after → waiting (before ++ [w]) = true →
    commitsOf (mpeg4Run l (before ++ [w])) = commitsOf (mpeg4Run l before) ∨
      ∃ bytes, FromOthers (before ++ [w]) bytes ∧
        commitsOf (mpeg4Run l (before ++ [w])) = commitsOf (mpeg4Run l before) ++ [bytes]

/-- Each packet of a P- or B-VOP that arrives while waiting, and is not empty, shows a start
code. -/
def StartCodesShow (ws : List WirePacket) : Prop :=
  ∀ before w after, ws = before ++ w :: after → w.packet.arrives = true →
    waiting (before ++ [w]) = true → NonIVop w.unit → w.packet.payload ≠ [] →
      mpeg4PayloadHasVop w.packet.payload = true

section Waiting

variable {bs : BitstreamMem} {l : Link Decoder}

theorem carriesIVop_of_hasIVop (p : List UInt8) (h : mpeg4PayloadHasIVop p = true) :
    carriesIVop p = true := by
  fun_induction mpeg4PayloadHasIVop p with
  | case1 a b c d e rest hcode =>
    obtain ⟨ha, hb, hc, hd⟩ := hcode
    have htype : e.toNat / 64 = 0 := by simpa using h
    simp [carriesIVop, ha, hb, hc, hd, htype]
  | case2 a b c d e rest hcode ih => simp [carriesIVop, ih h]
  | case3 p hshort => exact absurd h Bool.false_ne_true

theorem FromOthers.nil (ws : List WirePacket) : FromOthers ws [] :=
  ⟨[], List.nil_sublist ws, by simp, rfl⟩

theorem FromOthers.skip {ws : List WirePacket} {bytes : List UInt8} (h : FromOthers ws bytes)
    (w : WirePacket) : FromOthers (ws ++ [w]) bytes := by
  obtain ⟨qs, hsub, hqs, hbytes⟩ := h
  exact ⟨qs, hsub.trans (List.sublist_append_left ws [w]), hqs, hbytes⟩

theorem FromOthers.push {ws : List WirePacket} {bytes : List UInt8} (h : FromOthers ws bytes)
    {w : WirePacket} (harr : w.packet.arrives = true) (hunit : ¬ NonIVop w.unit) :
    FromOthers (ws ++ [w]) (bytes ++ w.packet.payload) := by
  obtain ⟨qs, hsub, hqs, hbytes⟩ := h
  refine ⟨qs ++ [w], hsub.append (List.Sublist.refl [w]), ?_, by simp [hbytes]⟩
  intro q hq
  rcases List.mem_append.1 hq with hold | hnew
  · exact hqs q hold
  · rw [List.mem_singleton.1 hnew]
    exact ⟨harr, hunit⟩

/-- The invariant of the wait, after the packets `ws`: a unit with an I-VOP is not open while the
handler waits, unless it is bad, and a good open unit holds no byte of a P- or B-VOP. -/
structure WaitInv (wait : Bool) (st : H264RtpState) (ws : List WirePacket)
    (bytes : List UInt8) : Prop where
  idr : st.auHasIdr = true → st.needIdr = true → st.auBad = true
  idrOpen : st.auHasIdr = true → st.auLen = 0 → st.auBad = true
  need : wait = true → st.needIdr = true
  clean : wait = true → st.auBad = false → FromOthers ws bytes

theorem waiting_concat (ws : List WirePacket) (w : WirePacket) :
    waiting (ws ++ [w]) =
      if w.packet.arrives then
        (waiting ws || gapSeen (lostAfter none ws)) && !carriesIVop w.packet.payload
      else waiting ws := by
  have hlost : ∀ (us : List WirePacket) (x : Option ℕ × Bool),
      (us.foldl waitStep x).1 = lostAfter x.1 us := by
    intro us
    induction us with
    | nil => intro x; rfl
    | cons u us ih =>
      intro x
      rw [List.foldl_cons, ih]
      rfl
  simp only [waiting, List.foldl_append, List.foldl_cons, List.foldl_nil, waitStep, hlost]

/-- The prologue of a delivery: the wait starts if a gap shows. -/
theorem WaitInv.enter {ws : List WirePacket} {wait : Bool} {bytes : List UInt8}
    (hw : WaitInv wait l.st ws bytes) (h : DirectInv bs l bytes) (w : WirePacket) :
    ∃ bytes₁, Staged bs l.out (rtpEnter l.st (w.encode l.sent)).1 bytes₁ ∧
      WaitInv (wait || l.gap) (rtpEnter l.st (w.encode l.sent)).1 ws bytes₁ := by
  obtain ⟨bytes₁, hs₁, hcase⟩ := h.enter w
  refine ⟨bytes₁, hs₁, ?_⟩
  have hneed : (wait || l.gap) = true → l.checked.needIdr = true := by
    intro hwait
    rcases Bool.or_eq_true_iff.1 hwait with hww | hg
    · simp [Link.checked, hw.need hww]
    · simp [Link.checked, hg]
  rcases hcase with ⟨-, -, rfl, heq⟩ | ⟨-, rfl, heq | ⟨hzero, heq⟩⟩
  · rw [heq]
    refine ⟨?_, ?_, hneed, ?_⟩
    · intro hidr hn
      rcases Bool.or_eq_true_iff.1 hn with hn | hg
      · simp [hw.idr hidr hn]
      · simp [hg]
    · intro hidr hlen
      simp [hw.idrOpen hidr hlen]
    · intro hwait hgood
      obtain ⟨hb, hg⟩ : l.st.auBad = false ∧ l.gap = false := by simpa using hgood
      exact hw.clean (by simpa [hg] using hwait) hb
  · rw [heq]
    refine ⟨?_, ?_, fun _ => rfl, fun _ _ => FromOthers.nil ws⟩
    · intro hidr
      exact absurd hidr Bool.false_ne_true
    · intro hidr
      exact absurd hidr Bool.false_ne_true
  · rw [heq]
    refine ⟨?_, ?_, hneed, fun _ _ => FromOthers.nil ws⟩
    · intro hidr _
      exact hw.idrOpen hidr hzero
    · intro hidr _
      exact hw.idrOpen hidr hzero

/-- Staging a packet: the wait ends with an I-VOP, and a packet that is staged during it is not
of a P- or B-VOP. -/
theorem WaitInv.stage {ws : List WirePacket} {wait bad : Bool} {st : H264RtpState}
    {bytes bytes' : List UInt8} {w : WirePacket} (hw : WaitInv wait st ws bytes)
    (harr : w.packet.arrives = true) (hlen : st.auLen = bytes.length)
    (halt : (bad = st.auBad ∧ bytes' = bytes ++ kept st.needIdr w.packet.payload) ∨
      (bad = true ∧ bytes' = bytes))
    (hshow : (wait && !carriesIVop w.packet.payload) = true → NonIVop w.unit →
      w.packet.payload ≠ [] → mpeg4PayloadHasVop w.packet.payload = true) :
    WaitInv (wait && !carriesIVop w.packet.payload)
      (mpeg4Flags st w.packet.payload bad bytes'.length) (ws ++ [w]) bytes' := by
  have hbad : st.auBad = true → bad = true := by
    intro hb
    rcases halt with ⟨rfl, -⟩ | ⟨rfl, -⟩
    · exact hb
    · rfl
  have hneed : (wait && !carriesIVop w.packet.payload) = true →
      waitsAfter st.needIdr w.packet.payload = true := by
    intro hwait
    obtain ⟨hww, hcarries⟩ := Bool.and_eq_true_iff.1 hwait
    cases hI : mpeg4PayloadHasIVop w.packet.payload with
    | false => simp [waitsAfter, hw.need hww, hI]
    | true => simp [carriesIVop_of_hasIVop _ hI] at hcarries
  refine ⟨?_, ?_, hneed, ?_⟩
  · intro hidr hn
    obtain ⟨hn, hI⟩ : st.needIdr = true ∧ mpeg4PayloadHasIVop w.packet.payload = false := by
      simpa [mpeg4Flags, waitsAfter] using hn
    exact hbad (hw.idr (by simpa [mpeg4Flags, hI] using hidr) hn)
  · intro hidr hzero
    rcases halt with ⟨rfl, hbytes'⟩ | ⟨rfl, -⟩
    · have hzero : bytes'.length = 0 := hzero
      rw [hbytes', List.length_append] at hzero
      cases hI : mpeg4PayloadHasIVop w.packet.payload with
      | true =>
        -- A packet with an I-VOP is never skipped, and is not empty.
        have hkept : kept st.needIdr w.packet.payload = w.packet.payload := by
          simp [kept, waitsAfter, hI]
        have hnil : w.packet.payload = [] := by
          apply List.eq_nil_of_length_eq_zero
          rw [hkept] at hzero
          omega
        rw [hnil] at hI
        exact absurd hI Bool.false_ne_true
      | false => exact hw.idrOpen (by simpa [mpeg4Flags, hI] using hidr) (by omega)
    · rfl
  · intro hwait hgood
    have hwaits := hneed hwait
    rcases halt with ⟨hb, hbytes'⟩ | ⟨hb, -⟩
    · have hfrom : FromOthers ws bytes :=
        hw.clean (Bool.and_eq_true_iff.1 hwait).1 (hb.symm.trans hgood)
      by_cases hvop : mpeg4PayloadHasVop w.packet.payload = true
      · simpa [hbytes', kept, hwaits, hvop] using hfrom.skip w
      · by_cases hempty : w.packet.payload = []
        · simpa [hbytes', kept, hempty] using hfrom.skip w
        · have hunit : ¬ NonIVop w.unit := fun hnon => hvop (hshow hwait hnon hempty)
          have hkept : kept st.needIdr w.packet.payload = w.packet.payload := by
            simp [kept, hvop]
          rw [hbytes', hkept]
          exact hfrom.push harr hunit
    · exact absurd (hb.symm.trans hgood) (Bool.false_ne_true ∘ Eq.symm)

/-- A flush ends the wait only with a unit that has an I-VOP, and such a unit is bad while the
handler waits. -/
theorem WaitInv.flush {ws : List WirePacket} {wait : Bool} {st : H264RtpState}
    {bytes : List UInt8} (hw : WaitInv wait st ws bytes) : WaitInv wait (flushed st) ws [] := by
  refine ⟨?_, ?_, ?_, fun _ _ => FromOthers.nil ws⟩
  · intro hidr
    exact absurd hidr Bool.false_ne_true
  · intro hidr
    exact absurd hidr Bool.false_ne_true
  · intro hwait
    have hneed := hw.need hwait
    cases hidr : st.auHasIdr with
    | false => simp [flushed, rtpAuReset, hneed, hidr]
    | true => simp [flushed, rtpAuReset, hneed, hw.idr hidr hneed]

/-- The invariant after one packet of the wire, and what the packet commits. -/
theorem WaitInv.step {ws : List WirePacket} {bytes : List UInt8} (h : DirectInv bs l bytes)
    (hw : WaitInv (waiting ws) l.st ws bytes) (hlost : l.lost = lostAfter none ws)
    {w : WirePacket}
    (hshow : w.packet.arrives = true → waiting (ws ++ [w]) = true → NonIVop w.unit →
      w.packet.payload ≠ [] → mpeg4PayloadHasVop w.packet.payload = true) :
    (∃ bytes', DirectInv bs (mpeg4Send l w) bytes' ∧
        WaitInv (waiting (ws ++ [w])) (mpeg4Send l w).st (ws ++ [w]) bytes') ∧
      (waiting (ws ++ [w]) = true →
        commitsOf (mpeg4Send l w) = commitsOf l ∨
          ∃ bytes', FromOthers (ws ++ [w]) bytes' ∧
            commitsOf (mpeg4Send l w) = commitsOf l ++ [bytes']) := by
  by_cases harr : w.packet.arrives = true
  · have hwaiting : waiting (ws ++ [w]) =
        ((waiting ws || l.gap) && !carriesIVop w.packet.payload) := by
      rw [waiting_concat, if_pos harr, ← hlost]
      rfl
    rw [hwaiting] at hshow ⊢
    obtain ⟨bytes₁, hs₁, hw₁⟩ := hw.enter h w
    obtain ⟨bad, bytes', hout, halt⟩ := mpeg4_deliver h harr hs₁
    have hw' := hw₁.stage harr hs₁.auLen_eq halt (hshow harr)
    -- The packet is in the middle of a unit, or it ends it and the unit is flushed.
    by_cases hno : w.packet.payload = [] ∨ w.marker = false
    · obtain ⟨h', hst, hcommits⟩ := hout.stay hno
      exact ⟨⟨bytes', h', by rw [hst]; exact hw'⟩, fun _ => .inl hcommits⟩
    · have hyes : w.packet.payload ≠ [] ∧ w.marker = true := by simpa using hno
      obtain ⟨h', hst, hcommits⟩ := hout.flush hyes
      refine ⟨⟨[], h', by rw [hst]; exact hw'.flush⟩, ?_⟩
      intro hwait
      by_cases hok : bytes' ≠ [] ∧ bad = false
      · rw [if_pos hok] at hcommits
        exact .inr ⟨bytes', hw'.clean hwait hok.2, hcommits⟩
      · rw [if_neg hok, List.append_nil] at hcommits
        exact .inl hcommits
  · -- Of a lost packet only the sender knows.
    have hgone : w.packet.arrives = false := by simpa using harr
    have h' := h.mpeg4Lose hgone
    have heq : mpeg4Send l w = { l with sent := l.sent + 1, lost := l.lost.map (· + 1) } :=
      Link.send_of_lost hgone
    refine ⟨⟨bytes, h', ?_⟩, fun _ => .inl (by rw [heq])⟩
    rw [heq, waiting_concat, if_neg harr]
    exact ⟨hw.idr, hw.idrOpen, hw.need, fun hwait hgood => (hw.clean hwait hgood).skip w⟩

theorem WaitInv.run (ws : List WirePacket) (hstart : DirectInv bs l [])
    (hzero : l.st = {}) (hnone : l.lost = none) (hshow : StartCodesShow ws) :
    ∃ bytes, DirectInv bs (mpeg4Run l ws) bytes ∧
      WaitInv (waiting ws) (mpeg4Run l ws).st ws bytes := by
  induction ws using List.reverseRecOn with
  | nil =>
    refine ⟨[], hstart, ?_⟩
    have hst : (mpeg4Run l []).st = {} := hzero
    rw [hst]
    exact ⟨fun hidr => absurd hidr Bool.false_ne_true, fun hidr => absurd hidr Bool.false_ne_true,
      fun hwait => absurd hwait Bool.false_ne_true, fun _ _ => FromOthers.nil []⟩
  | append_singleton ws w ih =>
    have hshow' : StartCodesShow ws := by
      intro before u after hsplit
      exact hshow before u (after ++ [w]) (by simp [hsplit])
    obtain ⟨bytes, h, hw⟩ := ih hshow'
    have hlost : (mpeg4Run l ws).lost = lostAfter none ws := by
      rw [show (mpeg4Run l ws).lost = _ from Link.run_lost_eq _ _ _, hnone]
    have hrun : mpeg4Run l (ws ++ [w]) = mpeg4Send (mpeg4Run l ws) w := Link.run_append _ _ _ _
    rw [hrun]
    exact (WaitInv.step h hw hlost (hshow ws w [] rfl)).1

/-- While it waits for an I-VOP the handler commits no byte of a P- or B-VOP, in every stream
whose P- and B-VOPs show a start code in each packet that arrives meanwhile. -/
theorem mpeg4_waits_for_ivop (bs : BitstreamMem) (mem : ℕ → UInt8) (sched : List ℕ) (first : ℕ)
    (s : Sender) (hshow : StartCodesShow (wire s.units)) :
    WaitsForIVop (directStart bs mem sched first) (wire s.units) := by
  intro before w after hsplit hwait
  have hbefore : StartCodesShow before := by
    intro b u a hb
    exact hshow b u (a ++ w :: after) (by rw [hsplit, hb]; simp)
  obtain ⟨bytes, h, hw⟩ :=
    WaitInv.run before (DirectInv.start bs mem sched first) rfl rfl hbefore
  have hlost : (mpeg4Run (directStart bs mem sched first) before).lost = lostAfter none before :=
    Link.run_lost_eq _ _ _
  have hrun : mpeg4Run (directStart bs mem sched first) (before ++ [w]) =
    mpeg4Send (mpeg4Run (directStart bs mem sched first) before) w := Link.run_append _ _ _ _
  rw [hrun]
  exact (WaitInv.step h hw hlost (hshow before w after hsplit)).2 hwait

end Waiting

/-- A P-VOP in one packet, received after another was lost, is not committed. -/
theorem mpeg4_waits_for_ivop_one_packet :
    ∃ s : Sender, waiting (wire s.units) = true ∧
      WaitsForIVop (directStart ⟨4096, by decide⟩ (fun _ => 0) [] 7) (wire s.units) ∧
      commitsOf (mpeg4Run (directStart ⟨4096, by decide⟩ (fun _ => 0) [] 7) (wire s.units)) =
        [[0, 0, 1, 0xb6, 0x10]] := by
  let u : AccessUnit := { ts := 1, packets := [{ payload := [0, 0, 1, 0xb6, 0x10] }] }
  let v : AccessUnit :=
    { ts := 2, packets := [{ payload := [0, 0, 1, 0xb6, 0x50], arrives := false }] }
  let x : AccessUnit := { ts := 3, packets := [{ payload := [0, 0, 1, 0xb6, 0x60, 7] }] }
  refine ⟨{ units := [u, v, x], distinct := by simp [u, v, x] }, by decide, ?_, by decide +kernel⟩
  apply mpeg4_waits_for_ivop
  intro before w after hsplit _ _ _ _
  have hmem : w ∈ wire [u, v, x] := by
    rw [hsplit]
    simp
  have hshow : ∀ q ∈ wire [u, v, x], mpeg4PayloadHasVop q.packet.payload = true := by decide
  exact hshow w hmem

/-- The second packet of a P-VOP, received after another was lost, is committed. -/
theorem mpeg4_commits_while_waiting :
    ¬ ∀ (bs : BitstreamMem) (mem : ℕ → UInt8) (sched : List ℕ) (first : ℕ) (s : Sender),
      WaitsForIVop (directStart bs mem sched first) (wire s.units) := by
  intro hall
  let u : AccessUnit := { ts := 1, packets := [{ payload := [0, 0, 1, 0xb6, 0x10] }] }
  let v : AccessUnit :=
    { ts := 2, packets := [{ payload := [0, 0, 1, 0xb6, 0x50], arrives := false }] }
  let x : AccessUnit :=
    { ts := 3, packets := [{ payload := [0, 0, 1, 0xb6, 0x60] }, { payload := [7] }] }
  let before : List WirePacket := [⟨u, u.packets.head u.nonempty, true⟩,
    ⟨v, v.packets.head v.nonempty, true⟩, ⟨x, x.packets.head x.nonempty, false⟩]
  let w : WirePacket := ⟨x, { payload := [7] }, true⟩
  have hstep := hall ⟨4096, by decide⟩ (fun _ => 0) [] 7
    { units := [u, v, x], distinct := by simp [u, v, x] } before w [] rfl (by decide)
  have hafter : commitsOf (mpeg4Run (directStart ⟨4096, by decide⟩ (fun _ => 0) [] 7)
      (before ++ [w])) = [[0, 0, 1, 0xb6, 0x10], [7]] := by
    decide +kernel
  have hbefore : commitsOf (mpeg4Run (directStart ⟨4096, by decide⟩ (fun _ => 0) [] 7)
      before) = [[0, 0, 1, 0xb6, 0x10]] := by decide +kernel
  rw [hafter, hbefore] at hstep
  rcases hstep with hsame | ⟨bytes, ⟨qs, hsub, hqs, hbytes⟩, hmore⟩
  · exact absurd hsame (by decide)
  · obtain rfl : [7] = bytes := by simpa using hmore
    have hnone : ∀ qs ∈ (before ++ [w]).sublists,
        (∀ q ∈ qs, q.packet.arrives = true ∧ ¬ NonIVop q.unit) →
          [7] ≠ qs.flatMap fun q => q.packet.payload := by decide +kernel
    exact hnone qs (List.mem_sublists.2 hsub) hqs hbytes

end Stream
end ToonVpu
