import ToonVpu.Stream.H264Lossless

/-!
# H264Recovery — does an IDR picture bring the receiver back?

Whatever bytes a handler was fed before, an IDR picture that arrives whole should be emitted, and
end the waiting.  Two things stand in its way.  A unit that was marked bad before it had any bytes
leaves the mark to the next unit, because the prologue resets only a unit with bytes.  And where
the picture starts with a fragmented IDR slice, its first fragment is passed over if a gap shows on
it, although a slice in one packet would be taken there.  Nothing else does (`idr_picture_recovers`).
-/

namespace ToonVpu
namespace Stream

open Foundation
open Lib

/-! ## Statement -/

/-- All slices of the unit are IDR slices, and there is one. -/
def IdrPicture (u : H264Unit) : Prop :=
  slices u.nals ≠ [] ∧ ∀ n ∈ slices u.nals, n.isIdr = true

/-- The sequence number `first` is not the one the receiver expects. -/
def SeqGap (st : H264RtpState) (first : ℕ) : Prop :=
  st.haveSeq = true ∧ (st.lastSeq + 1) % 65536 ≠ first % 65536

/-- The receiver, in front of a sender whose next packet has the sequence number `first`.  The
number of lost packets is what the sequence numbers tell of it. -/
def Link.resume {α : Type*} (s : α) (st : H264RtpState) (first : ℕ) : Link α :=
  ⟨s, st, first,
    if st.haveSeq then some ((first + (65535 - st.lastSeq % 65536)) % 65536) else none⟩

/-- The unit is emitted at its marker, and not before.  What is emitted has all NAL units of it, or
those that a waiting receiver lets through; all slices are among them.  The waiting ends. -/
structure Recovers {α : Type*} (handle : Handler α) (emitted : α → List (List UInt8))
    (spspps : List UInt8) (l : Link α) (u : H264Unit) : Prop where
  quiet : ∀ ws w, u.accessUnit.wire = ws ++ [w] → emitted (l.run handle ws).out = emitted l.out
  unit : ∃ need : Bool,
    emitted (l.run handle u.accessUnit.wire).out =
        emitted l.out ++ [render spspps (groupKept need u.groups)] ∧
      slices (groupKept need u.groups) = slices u.nals
  needIdr : (l.run handle u.accessUnit.wire).st.needIdr = false

/-- The first packet carries a fragment of an IDR slice. -/
def StartsWithCutIdr (u : H264Unit) : Prop :=
  ∃ g gs, u.groups = g :: gs ∧ g.isFuA = true ∧ ∃ n ∈ g.nals, n.isIdr = true

/-- No bad mark is left on a unit without bytes, and no gap shows on the first fragment of an IDR
slice. -/
def Recoverable (st : H264RtpState) (first : ℕ) (u : H264Unit) : Prop :=
  ¬ (st.auBad = true ∧ st.auLen = 0) ∧ ¬ (SeqGap st first ∧ StartsWithCutIdr u)

/-! ## Every state -/

/-- What is left by packets of any bytes. -/
structure Reached {α : Type*} (V : StoreView α) (s : α) (st : H264RtpState) : Prop where
  raw : ∃ b, V.Raw s st b
  fresh : st.auHaveTs = false → st.auLen = 0

theorem rtpPayload_ne_nil {pkt payload : List UInt8} (h : rtpPayload pkt = some payload) :
    payload ≠ [] := by
  have hdrop : ∀ off, ¬ pkt.length ≤ off → pkt.drop off ≠ [] := by
    intro off hoff hnil
    exact hoff (List.drop_eq_nil_iff.1 hnil)
  unfold rtpPayload at h
  simp only at h
  split at h
  · split at h
    · exact absurd h (by simp)
    split at h
    · exact absurd h (by simp)
    · rename_i hlen
      rw [← Option.some.inj h]
      exact hdrop _ hlen
  · split at h
    · exact absurd h (by simp)
    · rename_i hlen
      rw [← Option.some.inj h]
      exact hdrop _ hlen

theorem rtpH264SeqGap_au (st : H264RtpState) (pkt : List UInt8) :
    (rtpH264SeqGap st pkt).1.au = st.au ∧ (rtpH264SeqGap st pkt).1.auLen = st.auLen := by
  unfold rtpH264SeqGap
  simp only
  split
  · exact ⟨rfl, rfl⟩
  split
  · exact ⟨rfl, rfl⟩
  split
  · exact ⟨rfl, rfl⟩
  · exact ⟨rfl, rfl⟩

section Reached

variable {α : Type*} {S : AuStore α} {spspps : List UInt8} {silent : Bool} {V : StoreView α}
  {s : α} {st : H264RtpState}

/-- The prologue keeps the bytes of the unit, or drops all of them. -/
theorem Reached.enter (law : StoreLaw S spspps silent V) (h : Reached V s st) (pkt : List UInt8) :
    (rtpEnter st pkt).1.auHaveTs = true ∧ ∃ b, V.Raw s (rtpEnter st pkt).1 b := by
  obtain ⟨b, hraw⟩ := h.raw
  obtain ⟨hau, hlen⟩ := rtpH264SeqGap_au st pkt
  have hgap : V.Raw s (rtpH264SeqGap st pkt).1 b := law.raw_of hraw hau hlen
  refine ⟨(Link.rtpNewTs_head _ _ _).2.2.1, ?_⟩
  unfold rtpEnter rtpNewTs
  simp only
  split
  · split
    · exact ⟨[], law.raw_nil hgap rfl⟩
    · exact ⟨b, law.raw_of hgap rfl rfl⟩
  split
  · exact ⟨b, law.raw_of hgap rfl rfl⟩
  · exact ⟨b, hgap⟩

/-- What a payload and a flush leave. -/
theorem Reached.settle (law : StoreLaw S spspps silent V) {e : H264RtpState} {b : List UInt8}
    (hts : e.auHaveTs = true) (hraw : V.Raw s e b) (seqGap marker : Bool) {payload : List UInt8}
    (hne : payload ≠ []) :
    Reached V (settle S marker (absorb S spspps s e seqGap payload)).1
      (settle S marker (absorb S spspps s e seqGap payload)).2 := by
  obtain ⟨-, hk, -, b', hb'⟩ := absorb_stays law hraw seqGap hne
  generalize absorb S spspps s e seqGap payload = r at hk hb'
  have hts' : r.2.1.auHaveTs = true := hk.1.2.2.1.trans hts
  have hstay : Reached V r.1 r.2.1 :=
    ⟨⟨b', hb'⟩, fun hfalse => absurd (hts'.symm.trans hfalse) (by simp)⟩
  unfold Stream.settle closeUnit
  split
  · split
    · obtain ⟨hst, hnil, -⟩ := law.flush hb'
      refine ⟨⟨[], by rw [hst]; exact hnil⟩, fun hfalse => ?_⟩
      rw [hst] at hfalse ⊢
      rfl
    · exact hstay
  · exact hstay

theorem Reached.handle (law : StoreLaw S spspps silent V) (h : Reached V s st)
    (pkt : List UInt8) :
    Reached V (h264Handler S spspps s st pkt).1 (h264Handler S spspps s st pkt).2.1 := by
  obtain ⟨hts, b, hraw⟩ := h.enter law pkt
  unfold h264Handler rtpHandle
  split
  · exact h
  simp only
  cases hpayload : rtpPayload pkt with
  | none => exact ⟨⟨b, hraw⟩, fun hfalse => absurd (hts.symm.trans hfalse) (by simp)⟩
  | some payload =>
    have hsettled := Reached.settle law hts hraw (rtpEnter st pkt).2 (rtpMarker pkt)
      (rtpPayload_ne_nil hpayload)
    rw [← h264Body_eq] at hsettled
    exact hsettled

theorem reached_deliverAll (law : StoreLaw S spspps silent V) {start : α}
    (hstart : V.Raw start {} []) (pkts : List (List UInt8)) :
    Reached V (deliverAll (h264Handler S spspps) start pkts).1
      (deliverAll (h264Handler S spspps) start pkts).2 :=
  deliverAll_inv ⟨⟨[], hstart⟩, fun _ => rfl⟩ (fun pkt h => h.handle law pkt) pkts

end Reached

/-! ## One unit -/

theorem length_render_le {spspps : List UInt8} {xs ys : List Nal} (h : xs.Sublist ys) :
    (render spspps xs).length ≤ (render spspps ys).length := by
  have hcons : ∀ n nals, (render spspps (n :: nals)).length =
      (render spspps [n]).length + (render spspps nals).length := by
    intro n nals
    rw [← List.length_append, ← render_append]
    rfl
  induction h with
  | slnil => exact Nat.le_refl _
  | cons n _ ih =>
    rw [hcons]
    exact ih.trans (Nat.le_add_left _ _)
  | @cons_cons xs ys n _ ih =>
    rw [hcons n xs, hcons n ys]
    exact Nat.add_le_add_left ih _

/-- An FU-A group of an IDR slice is kept by every receiver. -/
theorem Group.kept_of_idr {g : Group} (need : Bool) (hfu : g.isFuA = true) {n : Nal}
    (hn : n ∈ g.nals) (hidr : n.isIdr = true) : g.kept need = g.nals := by
  cases g with
  | single e nal => exact absurd hfu (by simp [isFuA])
  | stapA e top nals short => exact absurd hfu (by simp [isFuA])
  | fuA header type_mem first mids last =>
    obtain rfl := List.mem_singleton.1 hn
    have hfive : header.toNat % 32 = 5 := of_decide_eq_true hidr
    rw [kept, if_neg fun hskip => hskip.2 hfive]

/-- Any other FU-A group is dropped by a receiver that waits. -/
theorem Group.kept_of_not_idr {g : Group} (hfu : g.isFuA = true)
    (hno : ¬ ∃ n ∈ g.nals, n.isIdr = true) : g.kept true = [] := by
  cases g with
  | single e nal => exact absurd hfu (by simp [isFuA])
  | stapA e top nals short => exact absurd hfu (by simp [isFuA])
  | fuA header type_mem first mids last =>
    have hfive : header.toNat % 32 ≠ 5 := fun h =>
      hno ⟨_, List.mem_singleton.2 rfl, decide_eq_true h⟩
    rw [kept, if_pos ⟨rfl, hfive⟩]

/-- Without the fragmented IDR slice at its start, a unit is shorter. -/
theorem length_render_cut (spspps : List UInt8) {g : Group} (gs : List Group) (need : Bool)
    (hfu : g.isFuA = true) {n : Nal} (hn : n ∈ g.nals) (hidr : n.isIdr = true) :
    (render spspps (groupKept true gs)).length <
      (render spspps (groupKept need (g :: gs))).length := by
  have hpos : 0 < (render spspps g.nals).length := by
    rw [List.length_pos_iff, ne_eq, render_eq_nil]
    exact List.ne_nil_of_mem hn
  calc (render spspps (groupKept true gs)).length
      ≤ (render spspps (groupKept need gs)).length := by
        cases need with
        | true => exact Nat.le_refl _
        | false =>
          rw [groupKept_false]
          exact length_render_le (groupKept_sublist true gs)
    _ < (render spspps g.nals).length + (render spspps (groupKept need gs)).length :=
        Nat.lt_add_of_pos_left hpos
    _ = (render spspps (groupKept need (g :: gs))).length := by
        rw [← List.length_append, ← render_append, ← Group.kept_of_idr need hfu hn hidr]
        rfl

section Unit

variable {α : Type*} {S : AuStore α} {spspps : List UInt8} {silent : Bool} {V : StoreView α}
  {l : Link α} {u : H264Unit} {s : α} {st : H264RtpState} {first : ℕ}

theorem resume_seq (s : α) (st : H264RtpState) (first : ℕ) : (Link.resume s st first).SeqInv := by
  unfold Link.resume
  cases hseq : st.haveSeq with
  | false => exact ⟨hseq, by simp⟩
  | true =>
    refine ⟨hseq, ?_⟩
    intro n hn
    simp only [if_true, Option.mem_def, Option.some.injEq] at hn
    simp only
    omega

theorem resume_gap (s : α) (st : H264RtpState) (first : ℕ) :
    (Link.resume s st first).gap = true ↔ SeqGap st first := by
  unfold Link.resume Link.gap gapSeen SeqGap
  cases hseq : st.haveSeq with
  | false => simp
  | true =>
    simp only [if_true, decide_eq_true_eq, true_and]
    omega

/-- The prologue on a packet with a new timestamp. -/
theorem Reached.entered (law : StoreLaw S spspps silent V) (h : Reached V l.out l.st)
    {a : AccessUnit} (hts : l.st.auHaveTs = true → l.st.auTs ≠ a.ts.toNat) :
    V.Raw l.out (l.entered a) [] ∧
      ((l.entered a).auBad = true ↔ l.st.auBad = true ∧ l.st.auLen = 0) ∧
      (l.gap = true → (l.entered a).needIdr = true ∧ (l.entered a).fuActive = false) := by
  obtain ⟨b, hraw⟩ := h.raw
  rcases l.entered_cases a with ⟨hopen, hsame, -⟩ | ⟨-, -, hpos, heq⟩ | ⟨hnew, heq⟩
  · exact absurd hsame (hts hopen)
  · -- A unit with bytes is discarded, and its mark with it.
    rw [heq]
    refine ⟨law.raw_nil hraw rfl, ⟨fun hbad => absurd hbad (by simp [rtpAuReset]), ?_⟩, ?_⟩
    · rintro ⟨-, hzero⟩
      omega
    · intro hgap
      simp [rtpAuReset, Link.checked, hgap]
  · have hzero : l.st.auLen = 0 := by
      rcases hnew with hclosed | ⟨-, hzero⟩
      · exact h.fresh hclosed
      · exact hzero
    rw [heq]
    refine ⟨law.raw_nil hraw hzero, ⟨fun hbad => ⟨hbad, hzero⟩, fun hbad => hbad.1⟩, ?_⟩
    intro hgap
    simp [Link.checked, hgap]

/-- Nothing is emitted before the marker. -/
theorem run_quiet (law : StoreLaw S spspps silent V) (hseq : l.SeqInv)
    (hraw : ∃ b, V.Raw l.out (l.entered u.accessUnit) b) (harr : Arrives u)
    {ws : List WirePacket} {w : WirePacket} (hwire : u.accessUnit.wire = ws ++ [w]) :
    V.emitted (l.run (h264Handler S spspps) ws).out = V.emitted l.out := by
  rcases List.eq_nil_or_concat (groupPackets u.groups) with hnil | ⟨ps, p, hps⟩
  · exact absurd hnil u.accessUnit.nonempty
  rw [List.concat_eq_append] at hps
  have hsplit : u.accessUnit.wire =
      wireMarked u.accessUnit false ps ++ [⟨u.accessUnit, p, true⟩] := by
    have hall : u.accessUnit.wire = wireMarked u.accessUnit true (groupPackets u.groups) :=
      wirePackets_eq_wireMarked _ _
    rw [hall, hps, wireMarked_append]
    rfl
  obtain ⟨rfl, -⟩ := List.append_inj' (hwire.symm.trans hsplit) rfl
  have hmem : ∀ q ∈ ps, q ∈ groupPackets u.groups := by
    intro q hq
    rw [hps]
    exact List.mem_append_left _ hq
  by_cases hne : ps = []
  · rw [hne]
    rfl
  · obtain ⟨l', hrun, -, hem, -⟩ := run_stays law (fun q hq => harr q (hmem q hq))
      (fun q hq => payload_of_mem_groupPackets q (hmem q hq)) hne hseq hraw
    rw [hrun]
    exact hem

/-- A unit that inherits a bad mark is lost. -/
theorem run_inherited (law : StoreLaw S spspps silent V) (hseq : l.SeqInv)
    (hraw : V.Raw l.out (l.entered u.accessUnit) [])
    (hbad : (l.entered u.accessUnit).auBad = true) (harr : Arrives u) :
    V.emitted (l.run (h264Handler S spspps) u.accessUnit.wire).out = V.emitted l.out := by
  obtain ⟨p, rest, hps⟩ := List.exists_cons_of_ne_nil u.accessUnit.nonempty
  have hps' : groupPackets u.groups = p :: rest := hps
  have hwire : u.accessUnit.wire = wireMarked u.accessUnit true (p :: rest) := by
    rw [← hps]
    exact wirePackets_eq_wireMarked _ _
  have harr' : ∀ q ∈ p :: rest, q.arrives = true := by
    rw [← hps']
    exact harr
  have hne : ∀ q ∈ p :: rest, q.payload ≠ [] := by
    rw [← hps']
    exact payload_of_mem_groupPackets
  obtain ⟨hem, hk, hstay, b, hb⟩ := absorb_stays law hraw l.gap (hne p List.mem_cons_self)
  obtain ⟨l', hrun, hem', -⟩ := bad_finish law hseq (harr' p List.mem_cons_self) hne rfl hem hk
    (hstay hbad) hb (gapsVisible_of_arrives fun q hq => harr' q (List.mem_cons_of_mem p hq))
  rw [hwire, hrun]
  exact hem'

/-- A unit whose first packet shows a gap and carries a fragment: the fragmented NAL unit is not
emitted.  The rest of the unit is, unless it is marked bad on the way. -/
theorem run_cut (law : StoreLaw S spspps silent V) {g : Group} {gs : List Group}
    (hgroups : u.groups = g :: gs) (hfu : g.isFuA = true) (hgap : l.gap = true) (hseq : l.SeqInv)
    (hclean : (l.entered u.accessUnit).auBad = false)
    (hraw : V.Raw l.out (l.entered u.accessUnit) [])
    (hneed : (l.entered u.accessUnit).needIdr = true)
    (hact : (l.entered u.accessUnit).fuActive = false) (harr : Arrives u)
    (hfits : ∀ x ∈ u.groups, x.Fits V) {l' : Link α}
    (hrun : l.run (h264Handler S spspps) u.accessUnit.wire = l') :
    Ended V spspps l.out (l.entered u.accessUnit) (groupKept true gs) l' ∨
      V.emitted l'.out = V.emitted l.out ∧
        ((∃ n ∈ g.nals, n.isIdr = true) ∨ ¬ Roomy V S spspps l u.accessUnit.wire) := by
  have hwire : u.accessUnit.wire = wireMarked u.accessUnit true (groupPackets u.groups) :=
    wirePackets_eq_wireMarked _ _
  have harr' : ∀ q ∈ groupPackets u.groups, q.arrives = true := harr
  rw [hgroups] at hfits harr'
  rw [hwire, hgroups] at hrun ⊢
  cases g with
  | single e nal => exact absurd hfu (by simp [Group.isFuA])
  | stapA e top nals short => exact absurd hfu (by simp [Group.isFuA])
  | fuA header type_mem f mids last =>
    have hafter : ∀ q ∈ groupPackets gs, q.arrives = true := fun q hq =>
      harr' q (by rw [groupPackets_cons]; exact List.mem_append_right _ hq)
    have hfrag : ∀ q ∈ Group.tailPackets header mids last, q.arrives = true ∧
        ∃ (f : Fragment) (stop : Bool), q = f.packet header false stop := by
      intro q hq
      have hsplit : (Group.fuA header type_mem f mids last).packets =
          [] ++ f.packet header true false :: Group.tailPackets header mids last := rfl
      refine ⟨harr' q ?_, (fuA_split hsplit).2 q hq⟩
      rw [groupPackets_cons]
      exact List.mem_append_left _ (List.mem_cons_of_mem _ hq)
    rcases run_headless law hseq hclean hraw hact (fun _ => hgap)
      (harr' (f.packet header true false) List.mem_cons_self) hfrag hafter
      payload_of_mem_groupPackets with ⟨hpassed, -⟩ | ⟨-, hfive, l'', hrun', hem, -⟩
    · rcases run_passed law hpassed hafter fun x hx => hfits x (List.mem_cons_of_mem _ hx) with
        ⟨l'', hrun', hended⟩ | hover
      · rw [hneed] at hended
        exact .inl (hrun'.symm.trans hrun ▸ hended)
      · obtain ⟨hem, -, -, hroom⟩ := hover
        exact .inr ⟨hrun ▸ hem, .inr hroom⟩
    · rw [hneed, not_and, not_not] at hfive
      have hidr : ∃ n ∈ (Group.fuA header type_mem f mids last).nals, n.isIdr = true :=
        ⟨_, List.mem_singleton.2 rfl, decide_eq_true (hfive rfl)⟩
      exact .inr ⟨hrun'.symm.trans hrun ▸ hem, .inl hidr⟩

/-- An IDR picture that was assembled ends the waiting. -/
theorem Recovers.of_ended (hidr : IdrPicture u) {e : H264RtpState} (need : Bool)
    (hquiet : ∀ ws w, u.accessUnit.wire = ws ++ [w] →
      V.emitted (l.run (h264Handler S spspps) ws).out = V.emitted l.out)
    (hended : Ended V spspps l.out e (groupKept need u.groups)
      (l.run (h264Handler S spspps) u.accessUnit.wire)) :
    Recovers (h264Handler S spspps) V.emitted spspps l u := by
  have hslices : slices (groupKept need u.groups) = slices u.nals :=
    slices_groupKept_idr need hidr.2
  obtain ⟨n, ns, hn⟩ := List.exists_cons_of_ne_nil hidr.1
  have hmem : n ∈ slices u.nals := by
    rw [hn]
    exact List.mem_cons_self
  have hkept : n ∈ groupKept need u.groups := by
    rw [← hslices] at hmem
    exact (List.mem_filter.1 hmem).1
  have hne : groupKept need u.groups ≠ [] := List.ne_nil_of_mem hkept
  have hany : (groupKept need u.groups).any Nal.isIdr = true :=
    List.any_eq_true.2 ⟨n, hkept, hidr.2 n hmem⟩
  refine ⟨hquiet, ⟨need, ?_, hslices⟩, ?_⟩
  · rw [hended.emitted, emission, if_neg hne]
  · rw [hended.need, hany]
    simp [hne]

/-- Recovery from any state, for a store that takes a unit with an uncut head, and has room for it
behind a gap. -/
theorem recovers_iff (law : StoreLaw S spspps silent V) (hreach : Reached V s st)
    (hts : st.auHaveTs = true → st.auTs ≠ u.ts.toNat) (harr : Arrives u) (hidr : IdrPicture u)
    (hfits : ∀ g ∈ u.groups, g.Fits V)
    (htaken : ((Link.resume s st first).entered u.accessUnit).auBad = false →
      V.Raw s ((Link.resume s st first).entered u.accessUnit) [] →
      HeadSafe (Link.resume s st first).gap u →
        Ended V spspps s ((Link.resume s st first).entered u.accessUnit)
          (groupKept ((Link.resume s st first).entered u.accessUnit).needIdr u.groups)
          ((Link.resume s st first).run (h264Handler S spspps) u.accessUnit.wire))
    (hroomy : (Link.resume s st first).gap = true →
      Roomy V S spspps (.resume s st first) u.accessUnit.wire) :
    Recovers (h264Handler S spspps) V.emitted spspps (.resume s st first) u ↔
      Recoverable st first u := by
  have hgapIff := resume_gap s st first
  have hseq := resume_seq s st first
  generalize hl : Link.resume s st first = l at *
  have hout : l.out = s := by rw [← hl]; rfl
  have hst : l.st = st := by rw [← hl]; rfl
  rw [← hout, ← hst] at hreach
  rw [← hst] at hts
  obtain ⟨hraw, hbadIff, hgapped⟩ := hreach.entered law (a := u.accessUnit) hts
  rw [hst] at hbadIff
  obtain ⟨g, gs, hgroups⟩ := List.exists_cons_of_ne_nil u.nonempty
  have hquiet : ∀ ws w, u.accessUnit.wire = ws ++ [w] →
      V.emitted (l.run (h264Handler S spspps) ws).out = V.emitted l.out := fun ws w hwire =>
    run_quiet law hseq ⟨[], hraw⟩ harr hwire
  constructor
  · intro hrec
    obtain ⟨need, hunit, -⟩ := hrec.unit
    refine ⟨fun hstale => ?_, fun hcut => ?_⟩
    · -- The mark is inherited, and nothing is emitted.
      rw [run_inherited law hseq hraw (hbadIff.2 hstale) harr] at hunit
      simp at hunit
    · -- The slice is passed over, so what is emitted is too short.
      obtain ⟨hgap, g', gs', hgroups', hfu, n, hn, hidrN⟩ := hcut
      obtain ⟨rfl, rfl⟩ := List.cons.inj (hgroups.symm.trans hgroups')
      have hclean : (l.entered u.accessUnit).auBad = false := by
        by_contra hbad
        rw [Bool.not_eq_false] at hbad
        rw [run_inherited law hseq hraw hbad harr] at hunit
        simp at hunit
      obtain ⟨hneed, hact⟩ := hgapped (hgapIff.2 hgap)
      rcases run_cut law hgroups hfu (hgapIff.2 hgap) hseq hclean hraw hneed hact harr hfits rfl
        with hended | ⟨hem, -⟩
      · rw [hended.emitted, List.append_cancel_left_eq, emission] at hunit
        split at hunit
        · exact absurd hunit (by simp)
        have hshort := length_render_cut spspps gs need hfu hn hidrN
        rw [← hgroups, (List.cons.inj hunit).1] at hshort
        exact absurd hshort (Nat.lt_irrefl _)
      · rw [hem] at hunit
        simp at hunit
  · rintro ⟨hstale, hcut⟩
    have hclean : (l.entered u.accessUnit).auBad = false := by
      by_contra hbad
      rw [Bool.not_eq_false] at hbad
      exact hstale (hbadIff.1 hbad)
    by_cases hhead : l.gap = true ∧ g.isFuA = true
    · -- What is passed over here is not an IDR slice; a waiting receiver would drop it anyway.
      obtain ⟨hgap, hfu⟩ := hhead
      have hno : ¬ ∃ n ∈ g.nals, n.isIdr = true := fun hn =>
        hcut ⟨hgapIff.1 hgap, g, gs, hgroups, hfu, hn⟩
      obtain ⟨hneed, hact⟩ := hgapped hgap
      rcases run_cut law hgroups hfu hgap hseq hclean hraw hneed hact harr hfits rfl with
        hended | ⟨-, hn | hroom⟩
      · have hkept : groupKept true u.groups = groupKept true gs := by
          rw [hgroups, groupKept, List.flatMap_cons, Group.kept_of_not_idr hfu hno]
          rfl
        rw [← hkept] at hended
        exact .of_ended hidr true hquiet hended
      · exact absurd hn hno
      · exact absurd (hroomy hgap) hroom
    · have hsafe : HeadSafe l.gap u := by
        intro g' gs' hgroups' hfu
        obtain ⟨rfl, rfl⟩ := List.cons.inj (hgroups.symm.trans hgroups')
        by_contra hgap
        rw [Bool.not_eq_false] at hgap
        exact hhead ⟨hgap, hfu⟩
      rw [← hout] at htaken
      exact .of_ended hidr _ hquiet (htaken hclean hraw hsafe)

end Unit

/-! ## The two handlers -/

theorem buffered_recovers_iff (spspps : List UInt8) (pkts : List (List UInt8)) (first : ℕ)
    {u : H264Unit} (harr : Arrives u) (hidr : IdrPicture u) (hfits : BufferFits spspps u)
    {x : List (List UInt8) × H264RtpState} (hx : x = deliverAll (handleRtpH264 spspps) [] pkts)
    (hts : x.2.auHaveTs = true → x.2.auTs ≠ u.ts.toNat) :
    Recovers (handleRtpH264 spspps) id spspps (.resume x.1 x.2 first) u ↔
      Recoverable x.2 first u := by
  have hreach : Reached (bufferedView spspps) x.1 x.2 := by
    rw [hx]
    exact reached_deliverAll (bufferedLaw spspps) ⟨rfl, rfl⟩ pkts
  have hseq := resume_seq x.1 x.2 first
  obtain ⟨hraw, -, hgapped⟩ := Reached.entered (l := .resume x.1 x.2 first)
    (bufferedLaw spspps) hreach (a := u.accessUnit) hts
  refine recovers_iff (bufferedLaw spspps) hreach hts harr hidr hfits.1 ?_ ?_
  · intro hclean hraw hhead
    exact unit_taken_buffered u hseq hclean hraw harr hhead hfits.1 hfits.2
  · -- Behind a gap no fragment is in progress, so all of `au` is free.
    intro hgap
    have hwire : u.accessUnit.wire = wireMarked u.accessUnit true (groupPackets u.groups) :=
      wirePackets_eq_wireMarked _ _
    rw [hwire]
    refine roomy_of_room (bufferedLaw spspps) (bufferedRoom spspps) _ harr
      payload_of_mem_groupPackets hseq ⟨[], hraw⟩ ?_
    have hlen : ((Link.resume x.1 x.2 first).entered u.accessUnit).auLen = 0 := hraw.1
    rw [added_groups]
    simp only [bufferedView, hlen, (hgapped hgap).2, Bool.false_eq_true, if_false, Nat.zero_add]
    exact hfits.2

theorem direct_recovers_iff (bs : BitstreamMem) (mem : ℕ → UInt8) (sched : List ℕ)
    (spspps : List UInt8) (pkts : List (List UInt8)) (first : ℕ) {u : H264Unit}
    (harr : Arrives u) (hidr : IdrPicture u) {x : Decoder × H264RtpState}
    (hx : x = deliverAll (handleRtpH264Direct spspps)
      (vpuDecOpenRing bs.phyAddr streamBufSize mem sched) pkts)
    (hts : x.2.auHaveTs = true → x.2.auTs ≠ u.ts.toNat)
    (hroomy : Roomy (directView bs spspps) directStore spspps (.resume x.1 x.2 first)
      u.accessUnit.wire) :
    Recovers (handleRtpH264Direct spspps) committed spspps (.resume x.1 x.2 first) u ↔
      Recoverable x.2 first u := by
  have hreach : Reached (directView bs spspps) x.1 x.2 := by
    rw [hx]
    exact reached_deliverAll (directLaw bs spspps) (DirectInv.start bs mem sched 0).staged pkts
  refine recovers_iff (directLaw bs spspps) hreach hts harr hidr (fun _ _ _ _ _ => trivial) ?_
    fun _ => hroomy
  intro hclean hraw hhead
  exact unit_taken_of_roomy (directLaw bs spspps) u (resume_seq x.1 x.2 first) hclean hraw harr
    hhead (fun _ _ _ _ _ => trivial) hroomy

/-- From every state that packets of any bytes can lead to, an IDR picture that arrives whole, with
a new timestamp and within the limits, is emitted and ends the waiting, if and only if no bad mark
is left on a unit without bytes and no gap shows on the first fragment of an IDR slice. -/
theorem idr_picture_recovers_iff (spspps : List UInt8) (pkts : List (List UInt8)) (first : ℕ)
    (u : H264Unit) (harr : Arrives u) (hidr : IdrPicture u) :
    (∀ x, x = deliverAll (handleRtpH264 spspps) [] pkts →
        (x.2.auHaveTs = true → x.2.auTs ≠ u.ts.toNat) → BufferFits spspps u →
        (Recovers (handleRtpH264 spspps) id spspps (.resume x.1 x.2 first) u ↔
          Recoverable x.2 first u)) ∧
      ∀ (bs : BitstreamMem) (mem : ℕ → UInt8) (sched : List ℕ) (x : Decoder × H264RtpState),
        x = deliverAll (handleRtpH264Direct spspps)
          (vpuDecOpenRing bs.phyAddr streamBufSize mem sched) pkts →
        (x.2.auHaveTs = true → x.2.auTs ≠ u.ts.toNat) →
        Roomy (directView bs spspps) directStore spspps (.resume x.1 x.2 first)
          u.accessUnit.wire →
        (Recovers (handleRtpH264Direct spspps) committed spspps (.resume x.1 x.2 first) u ↔
          Recoverable x.2 first u) := by
  constructor
  · intro x hx hts hfits
    exact buffered_recovers_iff spspps pkts first harr hidr hfits hx hts
  · intro bs mem sched x hx hts hroomy
    exact direct_recovers_iff bs mem sched spspps pkts first harr hidr hx hts hroomy

/-- A P slice, a lost packet, and an IDR slice in one packet. -/
theorem idr_picture_recovers_iff_single :
    ∃ (pkts : List (List UInt8)) (u : H264Unit),
      (∃ x, x = deliverAll (handleRtpH264 []) [] pkts ∧ SeqGap x.2 2 ∧
        Recovers (handleRtpH264 []) id [] (.resume x.1 x.2 2) u) ∧
      ∃ x, x = deliverAll (handleRtpH264Direct [])
          (vpuDecOpenRing 4096 streamBufSize (fun _ => 0) []) pkts ∧ SeqGap x.2 2 ∧
        Recovers (handleRtpH264Direct []) committed [] (.resume x.1 x.2 2) u := by
  let u : H264Unit := { ts := 2, groups := [.single {} ⟨0x65, [3], by decide⟩] }
  let pkts : List (List UInt8) := [[128, 224, 0, 0, 0, 0, 0, 1, 0, 0, 0, 0, 0x41, 1]]
  have harr : Arrives u := by
    unfold Arrives
    decide
  have hidr : IdrPicture u := by
    unfold IdrPicture
    decide
  have hfits : BufferFits [] u := by
    unfold BufferFits FuFits
    decide
  have huncut : ¬ StartsWithCutIdr u := by
    rintro ⟨g, gs, hgroups, hfu, -⟩
    obtain ⟨rfl, -⟩ := List.cons.inj hgroups
    exact absurd hfu (by decide)
  have hboth := idr_picture_recovers_iff [] pkts 2 u harr hidr
  refine ⟨pkts, u, ⟨_, rfl, by unfold SeqGap; decide +kernel, ?_⟩,
    ⟨_, rfl, by unfold SeqGap; decide +kernel, ?_⟩⟩
  · exact (hboth.1 _ rfl (by decide +kernel) hfits).2
      ⟨by decide +kernel, fun h => huncut h.2⟩
  · exact (hboth.2 ⟨4096, by decide⟩ (fun _ => 0) [] _ rfl (by decide +kernel)
      (by decide +kernel)).2 ⟨by decide +kernel, fun h => huncut h.2⟩

/-- A P slice, a lost packet, and an IDR slice in two fragments: both handlers drop the picture and
go on waiting. -/
theorem idr_picture_dropped :
    ¬ (∀ (spspps : List UInt8) (pkts : List (List UInt8)) (first : ℕ) (u : H264Unit),
        Arrives u → IdrPicture u → BufferFits spspps u →
        ∀ x, x = deliverAll (handleRtpH264 spspps) [] pkts →
          (x.2.auHaveTs = true → x.2.auTs ≠ u.ts.toNat) →
          Recovers (handleRtpH264 spspps) id spspps (.resume x.1 x.2 first) u) ∧
      ¬ ∀ (spspps : List UInt8) (pkts : List (List UInt8)) (first : ℕ) (u : H264Unit),
        Arrives u → IdrPicture u →
        ∀ (bs : BitstreamMem) (mem : ℕ → UInt8) (sched : List ℕ) (x : Decoder × H264RtpState),
          x = deliverAll (handleRtpH264Direct spspps)
            (vpuDecOpenRing bs.phyAddr streamBufSize mem sched) pkts →
          (x.2.auHaveTs = true → x.2.auTs ≠ u.ts.toNat) →
          Roomy (directView bs spspps) directStore spspps (.resume x.1 x.2 first)
            u.accessUnit.wire →
          Recovers (handleRtpH264Direct spspps) committed spspps (.resume x.1 x.2 first) u := by
  let u : H264Unit :=
    { ts := 2, groups := [.fuA 0x65 (by decide) { data := [3] } [] { data := [4] }] }
  let pkts : List (List UInt8) := [[128, 224, 0, 0, 0, 0, 0, 1, 0, 0, 0, 0, 0x41, 1]]
  have harr : Arrives u := by
    unfold Arrives
    decide
  have hidr : IdrPicture u := by
    unfold IdrPicture
    decide
  constructor
  · intro hall
    have hfits : BufferFits [] u := by
      unfold BufferFits FuFits
      decide
    have hrec := hall [] pkts 2 u harr hidr hfits _ rfl (by decide +kernel)
    exact absurd hrec.needIdr (by decide +kernel)
  · intro hall
    have hrec := hall [] pkts 2 u harr hidr ⟨4096, by decide⟩ (fun _ => 0) [] _ rfl
      (by decide +kernel) (by decide +kernel)
    exact absurd hrec.needIdr (by decide +kernel)

end Stream
end ToonVpu
