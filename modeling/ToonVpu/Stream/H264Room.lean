import ToonVpu.Stream.H264Outcome

/-!
# H264Room — how much room an access unit takes

The handlers look for room before each append.  A unit that arrives whole takes what its NAL units
take with their start codes, so if there is room for that when its first packet is let in, no
append fails (`unit_taken`).  What may be left in `fu` of an older fragmented NAL unit takes no
room: a first fragment overwrites it (`run_forgets`).
-/

namespace ToonVpu
namespace Stream

open Foundation
open Lib

/-! ## What a packet takes -/

section Added

variable {spspps : List UInt8}

/-- A packet adds at most what it adds to a receiver that does not wait. -/
theorem length_added_le (seqGap need : Bool) (payload : List UInt8) :
    (added spspps seqGap need payload).length ≤ (added spspps false false payload).length := by
  have hnal : ∀ nal, (nalAdded spspps need nal).length ≤ (nalAdded spspps false nal).length := by
    intro nal
    unfold nalAdded
    split <;> simp
  unfold added
  split
  · exact hnal payload
  split
  · induction stapNals payload.length (payload.drop 1) with
    | nil => exact Nat.le_refl _
    | cons nal nals ih =>
      simp only [List.flatMap_cons, List.length_append]
      exact Nat.add_le_add (hnal nal) ih
  split
  · split <;> simp
  · exact Nat.le_refl _

theorem filter_passes_false (nals : List Nal) : nals.filter (Nal.passes false) = nals :=
  List.filter_eq_self.2 fun _ _ => rfl

theorem nalAdded_false (n : Nal) : nalAdded spspps false n.bytes = render spspps [n] := by
  rw [nalAdded_bytes, filter_passes_false]

/-- All fragments of a NAL unit together. -/
theorem added_tailPackets {header : UInt8} (mids : List Fragment) (last : Fragment) :
    (Group.tailPackets header mids last).flatMap (fun p => added spspps false false p.payload) =
      mids.flatMap Fragment.data ++ last.data := by
  have hlater : ∀ (f : Fragment) (stop : Bool),
      added spspps false false (f.packet header false stop).payload = f.data := by
    intro f stop
    simp [added_fragment]
  induction mids with
  | nil => simp [Group.tailPackets, hlater]
  | cons f mids ih =>
    have hcons : Group.tailPackets header (f :: mids) last =
        f.packet header false false :: Group.tailPackets header mids last := rfl
    rw [hcons, List.flatMap_cons, hlater, ih, List.flatMap_cons, List.append_assoc]

/-- The packets of a group carry its NAL units. -/
theorem added_group (g : Group) :
    g.packets.flatMap (fun p => added spspps false false p.payload) = render spspps g.nals := by
  cases g with
  | single e nal =>
    have htype : 1 ≤ nalType nal.bytes ∧ nalType nal.bytes ≤ 23 := nal.type_mem
    simp only [Group.packets, List.flatMap_singleton, Envelope.packet, added, if_pos htype]
    exact nalAdded_false nal
  | stapA e top nals short =>
    have hpay := added_stapA spspps top nals short false false
    rw [filter_passes_false] at hpay
    simp only [Group.packets, List.flatMap_singleton, Envelope.packet]
    exact hpay
  | fuA header type_mem first mids last =>
    rw [Group.packets, List.flatMap_cons, added_tailPackets, added_fragment]
    simp [Group.nals, render, Nal.bytes, pendOf, nalType, byteAt]

/-- The packets of some groups carry their NAL units, in order. -/
theorem added_groups (gs : List Group) :
    (groupPackets gs).flatMap (fun p => added spspps false false p.payload) =
      render spspps (groupNals gs) := by
  induction gs with
  | nil => rfl
  | cons g gs ih =>
    rw [groupPackets_cons, List.flatMap_append, added_group, ih, ← render_append]
    rfl

end Added

/-! ## What a store lets a packet take -/

/-- A store whose fragments take no more room than they add. -/
structure RoomLaw {α : Type*} (S : AuStore α) (spspps : List UInt8) (V : StoreView α) : Prop where
  mono : ∀ {s st m n}, V.Room s st n → m ≤ n → V.Room s st m
  fuA : ∀ {s st b} seqGap payload m, V.Raw s st b → nalType payload = 28 → 2 ≤ payload.length →
    V.Room s st ((added spspps seqGap st.needIdr payload).length + m) →
      V.Room (S.fuA spspps s st seqGap payload).1 (S.fuA spspps s st seqGap payload).2.1 m

/-- What an FU-A packet adds. -/
theorem added_fuA {spspps payload : List UInt8} {seqGap need : Bool} (htype : nalType payload = 28)
    (hlen : 2 ≤ payload.length) :
    added spspps seqGap need payload =
      if seqGap = true ∨ need = true ∧ fuType payload ≠ 5 then []
      else if fuStart payload then
        pendOf spspps [fuHdr payload] ++ startCode ++ fuHdr payload :: payload.drop 2
      else payload.drop 2 := by
  rw [added, if_neg (by omega), if_neg (by omega), if_pos ⟨htype, hlen⟩]

theorem StoreView.Grows.room {α : Type*} {V : StoreView α} {s : α} {st : H264RtpState}
    {p : List UInt8} {i : Bool} {r : α × H264RtpState} {D : Prop} (h : V.Grows s st p i r D)
    {m : ℕ} (hroom : V.Room s st (p.length + m)) : V.Room r.1 r.2 m := by
  obtain ⟨-, -, -, ⟨-, -, hkeep⟩ | ⟨-, -, hfull⟩⟩ := h
  · exact hkeep m hroom
  · exact absurd hroom (hfull m)

section Direct

variable {bs : BitstreamMem} {spspps : List UInt8} {d : Decoder} {st : H264RtpState}
  {b : List UInt8}

theorem fuJoinDirect_room (h : Staged bs d st b) (payload : List UInt8) {m : ℕ}
    (hroom : (directView bs spspps).Room d st ((payload.drop 2).length + m)) :
    (directView bs spspps).Room (fuJoinDirect d st payload).1 (fuJoinDirect d st payload).2 m := by
  cases hact : st.fuActive with
  | false =>
    rw [fuJoinDirect, if_pos hact]
    simp only [directView] at hroom ⊢
    omega
  | true => exact (fuJoinDirect_grows spspps payload h hact).room hroom

theorem directRoom (bs : BitstreamMem) (spspps : List UInt8) :
    RoomLaw directStore spspps (directView bs spspps) where
  mono := by
    intro d st m n hroom hle
    simp only [directView] at hroom ⊢
    omega
  fuA := by
    intro d st b seqGap payload m h htype hlen hroom
    rw [added_fuA htype hlen] at hroom
    by_cases hskip : seqGap = true ∨ st.needIdr = true ∧ fuType payload ≠ 5
    · rw [if_pos hskip, List.length_nil, Nat.zero_add] at hroom
      rw [(directLaw bs spspps).fuSkip hskip]
      exact hroom
    rw [if_neg hskip] at hroom
    rw [not_or, Bool.not_eq_true] at hskip
    rw [hskip.1]
    have hresult : directStore.fuA spspps d st false payload = _ := fuADirect_of_go spspps hskip.2
    rw [hresult]
    by_cases hstart : fuStart payload = true
    · rw [if_pos hstart] at hroom ⊢
      have hbegin := fuBeginDirect_grows spspps h payload
      obtain ⟨-, -, -, b', hb'⟩ := hbegin.stays
      refine fuJoinDirect_room hb' payload (hbegin.room ?_)
      have hsplit : (pendOf spspps [fuHdr payload] ++ startCode ++
            fuHdr payload :: payload.drop 2).length + m =
          (pendOf spspps [fuHdr payload] ++ (startCode ++ [fuHdr payload])).length +
            ((payload.drop 2).length + m) := by
        simp only [List.length_append, List.length_cons, List.length_nil]
        omega
      rwa [hsplit] at hroom
    · rw [if_neg hstart] at hroom ⊢
      exact fuJoinDirect_room h payload hroom

end Direct

section Buffered

variable {spspps : List UInt8} {out : List (List UInt8)} {st : H264RtpState} {b : List UInt8}

theorem rtpAuAppend_le (st : H264RtpState) (nal : List UInt8) :
    (rtpAuAppend st nal).auLen ≤ st.auLen + (4 + nal.length) := by
  unfold rtpAuAppend
  split
  · exact Nat.le_add_right _ _
  · have hsc : startCode.length = 4 := rfl
    simp only [H264RtpState.pushAu, hsc]
    omega

theorem fuJoinBuffered_room (payload : List UInt8) {m : ℕ}
    (hroom : (bufferedView spspps).Room out st ((payload.drop 2).length + m)) :
    (bufferedView spspps).Room out (fuJoinBuffered st payload).1 m := by
  have hdrop : (payload.drop 2).length = payload.length - 2 := List.length_drop
  rw [hdrop] at hroom
  unfold fuJoinBuffered
  split
  · simp only [bufferedView, Bool.false_eq_true, if_false] at hroom ⊢
    omega
  · rename_i hgo
    rw [not_or, Bool.not_eq_false] at hgo
    simp only [bufferedView, hgo.1, if_true] at hroom
    simp only
    split
    · -- The NAL unit moves from `fu` to `au`.
      simp only [bufferedView, Bool.false_eq_true, if_false]
      refine (Nat.add_le_add_right (rtpAuAppend_le _ _) m).trans ?_
      simp only [List.length_take]
      omega
    · simp only [bufferedView, hgo.1, if_true]
      omega

theorem bufferedRoom (spspps : List UInt8) :
    RoomLaw bufferedStore spspps (bufferedView spspps) where
  mono := by
    intro out st m n hroom hle
    simp only [bufferedView] at hroom ⊢
    omega
  fuA := by
    intro out st b seqGap payload m h htype hlen hroom
    rw [added_fuA htype hlen] at hroom
    by_cases hskip : seqGap = true ∨ st.needIdr = true ∧ fuType payload ≠ 5
    · rw [if_pos hskip, List.length_nil, Nat.zero_add] at hroom
      rw [(bufferedLaw spspps).fuSkip hskip]
      exact hroom
    rw [if_neg hskip] at hroom
    rw [not_or, Bool.not_eq_true] at hskip
    rw [hskip.1]
    have hresult : bufferedStore.fuA spspps out st false payload = _ := fuABuffered_of_go hskip.2
    rw [hresult]
    refine fuJoinBuffered_room payload ?_
    by_cases hstart : fuStart payload = true
    · rw [if_pos hstart] at hroom ⊢
      obtain ⟨st', hbegin, -, -, hact, -, hone, hcase⟩ := fuBeginBuffered_spec h payload
      have hle : st'.auLen ≤ st.auLen + (pendOf spspps [fuHdr payload]).length := by
        rcases hcase with ⟨-, hraw⟩ | ⟨-, hraw, -⟩
        · rw [hraw.1, List.length_append, h.1]
        · rw [hraw.1, h.1]
          exact Nat.le_add_right _ _
      have hsc : startCode.length = 4 := rfl
      rw [hbegin]
      simp only [bufferedView, List.length_append, List.length_cons, hsc, hact, if_true,
        hone] at hroom ⊢
      omega
    · rw [if_neg hstart] at hroom ⊢
      exact hroom

end Buffered

/-! ## Units that arrive whole -/

section Whole

variable {α : Type*} {S : AuStore α} {spspps : List UInt8} {silent : Bool} {V : StoreView α}
  {l : Link α} {a : AccessUnit}

theorem absorb_room (law : StoreLaw S spspps silent V) (room : RoomLaw S spspps V) {s : α}
    {st : H264RtpState} {b : List UInt8} (h : V.Raw s st b) (seqGap : Bool) {payload : List UInt8}
    (hne : payload ≠ []) {m : ℕ}
    (hroom : V.Room s st ((added spspps seqGap st.needIdr payload).length + m)) :
    V.Room (absorb S spspps s st seqGap payload).1 (absorb S spspps s st seqGap payload).2.1 m := by
  unfold absorb
  by_cases hone : 1 ≤ nalType payload ∧ nalType payload ≤ 23
  · rw [added, if_pos hone] at hroom
    rw [if_pos hone]
    exact (h264Nal_grows law h hne).room hroom
  by_cases hstap : nalType payload = 24
  · rw [added, if_neg hone, if_pos hstap] at hroom
    rw [if_neg hone, if_pos hstap]
    exact (h264Nals_grows law h fun _ => ne_nil_of_mem_stapNals).room hroom
  by_cases hfu : nalType payload = 28 ∧ 2 ≤ payload.length
  · rw [if_neg hone, if_neg hstap, if_pos hfu]
    exact room.fuA seqGap payload m h hfu.1 hfu.2 hroom
  · rw [if_neg hone, if_neg hstap, if_neg hfu]
    exact room.mono hroom (Nat.le_add_left m _)

/-- If there is room for what the packets of a unit carry, there is room for each of them. -/
theorem roomy_of_room (law : StoreLaw S spspps silent V) (room : RoomLaw S spspps V)
    (ps : List Packet) (harr : ∀ p ∈ ps, p.arrives = true) (hne : ∀ p ∈ ps, p.payload ≠ []) :
    ∀ {l : Link α}, l.SeqInv → (∃ b, V.Raw l.out (l.entered a) b) →
      V.Room l.out (l.entered a)
        (ps.flatMap fun p => added spspps false false p.payload).length →
        Roomy V S spspps l (wireMarked a true ps) := by
  induction ps with
  | nil =>
    intro l _ _ _
    trivial
  | cons p ps ih =>
    intro l hseq hraw hroom
    obtain ⟨b, hb⟩ := hraw
    have hp : p.arrives = true := harr p List.mem_cons_self
    have hpay : p.payload ≠ [] := hne p List.mem_cons_self
    rw [List.flatMap_cons, List.length_append] at hroom
    have hadded : V.Room l.out (l.entered a)
        ((added spspps l.gap (l.entered a).needIdr p.payload).length +
          (ps.flatMap fun p => added spspps false false p.payload).length) :=
      room.mono hroom (Nat.add_le_add_right (length_added_le _ _ _) _)
    rw [wireMarked, Bool.true_and]
    refine ⟨fun _ => room.mono hadded (Nat.le_add_right _ _), ?_⟩
    cases hps : ps.isEmpty with
    | true =>
      obtain rfl : ps = [] := List.isEmpty_iff.1 hps
      trivial
    | false =>
      -- Behind a packet that is not the last one there is no flush.
      have hstays := absorb_stays law hb l.gap hpay
      have hafter := absorb_room law room hb l.gap hpay hadded
      have hsettle : settle S false (absorb S spspps l.out (l.entered a) l.gap p.payload) =
          ((absorb S spspps l.out (l.entered a) l.gap p.payload).1,
            (absorb S spspps l.out (l.entered a) l.gap p.payload).2.1) := by
        unfold settle closeUnit
        simp
      rw [send_absorb hseq hp hpay, hsettle]
      generalize absorb S spspps l.out (l.entered a) l.gap p.payload = r at hstays hafter
      have hin : Inside (l.after (r.1, r.2.1)) a := .of_after hstays.2.1.1
      obtain ⟨b', hb'⟩ := hstays.2.2.2
      refine ih (fun q hq => harr q (List.mem_cons_of_mem p hq))
        (fun q hq => hne q (List.mem_cons_of_mem p hq)) hin.seq ⟨b', hin.raw law hb'⟩ ?_
      rw [hin.entered]
      exact law.room_of hafter (Nat.le_refl _) (Nat.le_refl _) id

/-- The first group of a unit is not cut, or no gap shows on its first packet. -/
def HeadSafe (gap : Bool) (u : H264Unit) : Prop :=
  ∀ g gs, u.groups = g :: gs → g.isFuA = true → gap = false

/-- A unit that arrives whole, with room for each packet, is assembled and emitted at its
marker. -/
theorem unit_taken_of_roomy (law : StoreLaw S spspps silent V) (u : H264Unit) (hseq : l.SeqInv)
    (hclean : (l.entered u.accessUnit).auBad = false)
    (hraw : V.Raw l.out (l.entered u.accessUnit) [])
    (harr : ∀ p ∈ groupPackets u.groups, p.arrives = true) (hhead : HeadSafe l.gap u)
    (hfits : ∀ g ∈ u.groups, g.Fits V) (hroomy : Roomy V S spspps l u.accessUnit.wire) :
    Ended V spspps l.out (l.entered u.accessUnit)
      (groupKept (l.entered u.accessUnit).needIdr u.groups)
      (l.run (h264Handler S spspps) u.accessUnit.wire) := by
  have hwire : u.accessUnit.wire = wireMarked u.accessUnit true (groupPackets u.groups) :=
    wirePackets_eq_wireMarked _ _
  obtain ⟨g, gs, hgroups⟩ := List.exists_cons_of_ne_nil u.nonempty
  rw [hwire] at hroomy ⊢
  rw [hgroups] at harr hfits hroomy ⊢
  rcases run_taken law hseq hclean hraw harr (hhead g gs hgroups) hfits with
    ⟨l', hrun, hended⟩ | ⟨-, -, -, hover⟩
  · rw [hrun]
    exact hended
  · exact absurd hroomy hover

/-- The same, with room for the whole unit from the start. -/
theorem unit_taken (law : StoreLaw S spspps silent V) (room : RoomLaw S spspps V)
    (u : H264Unit) (hseq : l.SeqInv) (hclean : (l.entered u.accessUnit).auBad = false)
    (hraw : V.Raw l.out (l.entered u.accessUnit) [])
    (harr : ∀ p ∈ groupPackets u.groups, p.arrives = true) (hhead : HeadSafe l.gap u)
    (hfits : ∀ g ∈ u.groups, g.Fits V)
    (hroom : V.Room l.out (l.entered u.accessUnit) (render spspps u.nals).length) :
    Ended V spspps l.out (l.entered u.accessUnit)
      (groupKept (l.entered u.accessUnit).needIdr u.groups)
      (l.run (h264Handler S spspps) u.accessUnit.wire) := by
  refine unit_taken_of_roomy law u hseq hclean hraw harr hhead hfits ?_
  rw [H264Unit.nals, ← added_groups] at hroom
  have hwire : u.accessUnit.wire = wireMarked u.accessUnit true (groupPackets u.groups) :=
    wirePackets_eq_wireMarked _ _
  rw [hwire]
  exact roomy_of_room law room (groupPackets u.groups) harr payload_of_mem_groupPackets hseq
    ⟨[], hraw⟩ hroom

end Whole

/-! ## What is left in `fu` -/

/-- Another NAL unit in progress. -/
def H264RtpState.withFu (st : H264RtpState) (fu : List UInt8) (n : ℕ) (active : Bool) :
    H264RtpState :=
  { st with fu := fu, fuLen := n, fuActive := active }

section Forget

variable {spspps : List UInt8} {out : List (List UInt8)} {st : H264RtpState} {a : AccessUnit}
  {fu : List UInt8} {n : ℕ} {active : Bool}

theorem rtpAuAppend_withFu (nal : List UInt8) :
    rtpAuAppend (st.withFu fu n active) nal = (rtpAuAppend st nal).withFu fu n active := by
  have hlen : (st.withFu fu n active).auLen = st.auLen := rfl
  unfold rtpAuAppend
  rw [hlen]
  split <;> rfl

theorem rtpAuAppendBytes_withFu (p : List UInt8) :
    rtpAuAppendBytes (st.withFu fu n active) p = (rtpAuAppendBytes st p).withFu fu n active := by
  have hlen : (st.withFu fu n active).auLen = st.auLen := rfl
  unfold rtpAuAppendBytes
  rw [hlen]
  split
  · rfl
  split <;> rfl

theorem rtpAuFlush_withFu :
    rtpAuFlush out (st.withFu fu n active) =
      ((rtpAuFlush out st).1, (rtpAuFlush out st).2.withFu fu n active) := by
  have hfields : (st.withFu fu n active).auLen = st.auLen ∧
      (st.withFu fu n active).auBad = st.auBad ∧ (st.withFu fu n active).needIdr = st.needIdr ∧
      (st.withFu fu n active).auHasIdr = st.auHasIdr ∧
      (st.withFu fu n active).au = st.au := ⟨rfl, rfl, rfl, rfl, rfl⟩
  obtain ⟨hlen, hbad, hneed, hidr, hau⟩ := hfields
  unfold rtpAuFlush
  rw [hlen, hbad, hneed, hidr, hau]
  split
  · simp only
    split
    · split <;> rfl
    · rfl
  · rfl

/-- What `handle_rtp_h264` does before an IDR slice: the flag and the parameter sets. -/
def pendBuffered (spspps : List UInt8) (idr : Prop) [Decidable idr] (st : H264RtpState) :
    H264RtpState :=
  let st := if idr then { st with auHasIdr := true } else st
  if idr ∧ 0 < spspps.length then rtpAuAppendBytes st spspps else st

theorem pendBuffered_withFu (idr : Prop) [Decidable idr] :
    pendBuffered spspps idr (st.withFu fu n active) =
      (pendBuffered spspps idr st).withFu fu n active := by
  have hflag : (if idr then { st.withFu fu n active with auHasIdr := true }
      else st.withFu fu n active) =
      (if idr then { st with auHasIdr := true } else st).withFu fu n active := by
    split <;> rfl
  simp only [pendBuffered, hflag, rtpAuAppendBytes_withFu]
  split <;> rfl

theorem h264Nal_buffered (nal : List UInt8) :
    h264Nal bufferedStore spspps (out, st) nal =
      (out, if st.needIdr = true ∧ nalType nal ≠ 5 ∧ nalType nal ≠ 7 ∧ nalType nal ≠ 8 then st
        else rtpAuAppend (pendBuffered spspps (nalType nal = 5) st) nal) := by
  unfold h264Nal pendBuffered
  simp only [bufferedStore]
  split
  · rfl
  · generalize (if nalType nal = 5 then { st with auHasIdr := true } else st) = st₁
    split <;> rfl

theorem h264Nal_withFu (nal : List UInt8) :
    h264Nal bufferedStore spspps (out, st.withFu fu n active) nal =
      ((h264Nal bufferedStore spspps (out, st) nal).1,
        (h264Nal bufferedStore spspps (out, st) nal).2.withFu fu n active) := by
  have hneed : (st.withFu fu n active).needIdr = st.needIdr := rfl
  rw [h264Nal_buffered, h264Nal_buffered, hneed, pendBuffered_withFu, rtpAuAppend_withFu]
  split <;> rfl

theorem h264Nals_withFu (nals : List (List UInt8)) :
    ∀ {out : List (List UInt8)} {st : H264RtpState},
      nals.foldl (h264Nal bufferedStore spspps) (out, st.withFu fu n active) =
        ((nals.foldl (h264Nal bufferedStore spspps) (out, st)).1,
          (nals.foldl (h264Nal bufferedStore spspps) (out, st)).2.withFu fu n active) := by
  induction nals with
  | nil =>
    intro out st
    rfl
  | cons nal nals ih =>
    intro out st
    rw [List.foldl_cons, List.foldl_cons, h264Nal_withFu, ih]

theorem fuBeginBuffered_eq (payload : List UInt8) :
    fuBeginBuffered spspps st payload =
      (pendBuffered spspps (fuType payload = 5) st).withFu [fuHdr payload] 1 true := by
  have hopen : fuBeginBuffered spspps st payload =
      { pendBuffered spspps (fuType payload = 5) (st.withFu [fuHdr payload] 1 st.fuActive) with
        fuActive := true } := rfl
  rw [hopen, pendBuffered_withFu]
  rfl

/-- A first fragment overwrites what is left in `fu`. -/
theorem fuABuffered_withFu {payload : List UInt8} (hstart : fuStart payload = true)
    (hgo : ¬ (st.needIdr = true ∧ fuType payload ≠ 5)) :
    fuABuffered spspps out (st.withFu fu n active) false payload =
      fuABuffered spspps out st false payload := by
  have hbegin : fuBeginBuffered spspps (st.withFu fu n active) payload =
      fuBeginBuffered spspps st payload := by
    rw [fuBeginBuffered_eq, fuBeginBuffered_eq, pendBuffered_withFu]
    rfl
  have hgo' : ¬ ((st.withFu fu n active).needIdr = true ∧ fuType payload ≠ 5) := hgo
  rw [fuABuffered_of_go hgo', fuABuffered_of_go hgo, hstart, if_pos rfl, if_pos rfl, hbegin]

theorem absorb_withFu {seqGap : Bool} {payload : List UInt8}
    (hfu : nalType payload = 28 → seqGap = true ∨ st.needIdr = true ∧ fuType payload ≠ 5) :
    absorb bufferedStore spspps out (st.withFu fu n active) seqGap payload =
      ((absorb bufferedStore spspps out st seqGap payload).1,
        (absorb bufferedStore spspps out st seqGap payload).2.1.withFu fu n active,
        (absorb bufferedStore spspps out st seqGap payload).2.2) := by
  unfold absorb
  split
  · rw [h264Nal_withFu]
  split
  · rw [h264Nals_withFu]
  split
  · rename_i htype
    have hskip := hfu htype.1
    have hskip' : seqGap = true ∨ (st.withFu fu n active).needIdr = true ∧ fuType payload ≠ 5 :=
      hskip
    rw [(bufferedLaw spspps).fuSkip hskip, (bufferedLaw spspps).fuSkip hskip']
  · rfl

theorem settle_withFu (marked goOn : Bool) :
    settle bufferedStore marked (out, st.withFu fu n active, goOn) =
      ((settle bufferedStore marked (out, st, goOn)).1,
        (settle bufferedStore marked (out, st, goOn)).2.withFu fu n active) := by
  unfold settle closeUnit
  simp only [bufferedStore, rtpAuFlush_withFu]
  split
  · split <;> rfl
  · rfl

theorem rtpNewTs_withFu (seqGap : Bool) (ts : ℕ) :
    rtpNewTs (st.withFu fu n active) seqGap ts = (rtpNewTs st seqGap ts).withFu fu n active := by
  have hfields : (st.withFu fu n active).auHaveTs = st.auHaveTs ∧
      (st.withFu fu n active).auTs = st.auTs ∧ (st.withFu fu n active).auLen = st.auLen :=
    ⟨rfl, rfl, rfl⟩
  obtain ⟨hopen, hts, hlen⟩ := hfields
  unfold rtpNewTs
  rw [hopen, hts, hlen]
  split
  · simp only
    split <;> rfl
  split <;> rfl

/-- Two links that differ in what is left in `fu`. -/
def ButFu (l l₀ : Link (List (List UInt8))) : Prop :=
  ∃ fu n active, l = { l₀ with st := l₀.st.withFu fu n active }

variable {l l₀ : Link (List (List UInt8))}

theorem ButFu.entered (h : ButFu l l₀) (a : AccessUnit) :
    ∃ fu n active, l.entered a = (l₀.entered a).withFu fu n active := by
  obtain ⟨fu, n, active, rfl⟩ := h
  have hchecked : Link.checked { l₀ with st := l₀.st.withFu fu n active } =
      l₀.checked.withFu fu (if l₀.gap then 0 else n) (active && !l₀.gap) := rfl
  refine ⟨fu, if l₀.gap then 0 else n, active && !l₀.gap, ?_⟩
  unfold Link.entered
  rw [hchecked]
  exact rtpNewTs_withFu l₀.gap a.ts.toNat

theorem ButFu.same (h : ButFu l l₀) :
    l.out = l₀.out ∧ l.sent = l₀.sent ∧ l.lost = l₀.lost ∧ l.gap = l₀.gap := by
  obtain ⟨fu, n, active, rfl⟩ := h
  exact ⟨rfl, rfl, rfl, rfl⟩

theorem ButFu.seq (h : ButFu l l₀) (hseq : l₀.SeqInv) : l.SeqInv := by
  obtain ⟨fu, n, active, rfl⟩ := h
  exact ⟨hseq.haveSeq, hseq.lastSeq⟩

variable (spspps) in
/-- A packet that does not join a fragment. -/
theorem ButFu.send (h : ButFu l l₀) (hseq : l₀.SeqInv) {p : Packet} (marked : Bool)
    (harr : p.arrives = true) (hne : p.payload ≠ [])
    (hfu : nalType p.payload = 28 →
      l₀.gap = true ∨ (l₀.entered a).needIdr = true ∧ fuType p.payload ≠ 5) :
    ButFu (l.send (h264Handler bufferedStore spspps) ⟨a, p, marked⟩)
      (l₀.send (h264Handler bufferedStore spspps) ⟨a, p, marked⟩) := by
  obtain ⟨fu, n, active, hent⟩ := h.entered a
  obtain ⟨hout, hsent, -, hgap⟩ := h.same
  rw [send_absorb (h.seq hseq) harr hne, send_absorb hseq harr hne, hent, hout, hgap,
    absorb_withFu hfu, settle_withFu]
  exact ⟨fu, n, active, by rw [Link.after, hsent]; rfl⟩

variable (spspps) in
/-- A first fragment that is not passed over. -/
theorem ButFu.send_first (h : ButFu l l₀) (hseq : l₀.SeqInv) {header : UInt8} {f : Fragment}
    (marked : Bool) (harr : f.envelope.arrives = true) (hgap : l₀.gap = false)
    (hgo : ¬ ((l₀.entered a).needIdr = true ∧ header.toNat % 32 ≠ 5)) :
    l.send (h264Handler bufferedStore spspps) ⟨a, f.packet header true false, marked⟩ =
      l₀.send (h264Handler bufferedStore spspps) ⟨a, f.packet header true false, marked⟩ := by
  obtain ⟨fu, n, active, hent⟩ := h.entered a
  obtain ⟨hout, hsent, -, hgap'⟩ := h.same
  have hgo' : ¬ ((l₀.entered a).needIdr = true ∧
      fuType (f.packet header true false).payload ≠ 5) := by rwa [fuType_fragment]
  have hsame : absorb bufferedStore spspps l.out (l.entered a) l.gap
      (f.packet header true false).payload =
      absorb bufferedStore spspps l₀.out (l₀.entered a) l₀.gap
        (f.packet header true false).payload := by
    rw [absorb_fragment, absorb_fragment, hgap', hgap, hout, hent]
    exact fuABuffered_withFu fuStart_fragment hgo'
  rw [send_absorb (p := f.packet header true false) (h.seq hseq) harr fragment_payload_ne_nil,
    send_absorb (p := f.packet header true false) hseq harr fragment_payload_ne_nil, hsame,
    Link.after, Link.after, hsent]

/-- Fragments that a waiting receiver passes over. -/
theorem ButFu.run_skipped {header : UInt8} (marked : Bool) (ps : List Packet)
    (hfrag : ∀ p ∈ ps, p.arrives = true ∧ ∃ (f : Fragment) (start stop : Bool),
      p = f.packet header start stop) :
    ∀ {l l₀ : Link (List (List UInt8))}, ButFu l l₀ → l₀.SeqInv →
      (l₀.entered a).needIdr = true ∧ header.toNat % 32 ≠ 5 →
        ButFu (l.run (h264Handler bufferedStore spspps) (wireMarked a marked ps))
          (l₀.run (h264Handler bufferedStore spspps) (wireMarked a marked ps)) := by
  induction ps with
  | nil =>
    intro l l₀ h _ _
    exact h
  | cons p ps ih =>
    intro l l₀ h hseq hskip
    obtain ⟨harr, f, start, stop, rfl⟩ := hfrag p List.mem_cons_self
    have hsend := h.send spspps (p := f.packet header start stop) hseq
      (marked && ps.isEmpty) harr fragment_payload_ne_nil
      fun _ => .inr (by rw [fuType_fragment]; exact hskip)
    rw [wireMarked, Link.run_cons, Link.run_cons]
    cases hps : ps.isEmpty with
    | true =>
      obtain rfl : ps = [] := List.isEmpty_iff.1 hps
      exact hsend
    | false =>
      -- Without a flush the receiver goes on waiting.
      have habsorb : absorb bufferedStore spspps l₀.out (l₀.entered a) l₀.gap
          (f.packet header start stop).payload = (l₀.out, l₀.entered a, true) := by
        rw [absorb_fragment]
        exact (bufferedLaw spspps).fuSkip (.inr (by rwa [fuType_fragment]))
      have hnext : l₀.send (h264Handler bufferedStore spspps)
          ⟨a, f.packet header start stop, false⟩ = l₀.after (l₀.out, l₀.entered a) := by
        rw [send_absorb (p := f.packet header start stop) hseq harr fragment_payload_ne_nil,
          habsorb]
        rfl
      have hin : Inside (l₀.after (l₀.out, l₀.entered a)) a := .of_after ⟨rfl, rfl, rfl, rfl⟩
      rw [hps, Bool.and_false, hnext] at hsend
      rw [Bool.and_false, hnext]
      refine ih (fun q hq => hfrag q (List.mem_cons_of_mem _ hq)) hsend hin.seq ?_
      rw [hin.entered]
      exact hskip

variable (spspps) in
/-- A group that arrives whole. -/
theorem ButFu.run_group (h : ButFu l l₀) (hseq : l₀.SeqInv) (marked : Bool) (g : Group)
    (harr : ∀ p ∈ g.packets, p.arrives = true) (hgap : g.isFuA = true → l₀.gap = false) :
    ButFu (l.run (h264Handler bufferedStore spspps) (wireMarked a marked g.packets))
      (l₀.run (h264Handler bufferedStore spspps) (wireMarked a marked g.packets)) := by
  cases g with
  | single e nal =>
    have htype : nalType nal.bytes ≠ 28 := by
      have hmem := nal.type_mem
      rw [nalType_bytes, Nal.type]
      omega
    exact h.send spspps (p := e.packet nal.bytes) hseq _ (harr _ List.mem_cons_self)
      (by simp [Envelope.packet, Nal.bytes]) fun h28 => absurd h28 htype
  | stapA e top nals short =>
    have htype : nalType (stapPayload top nals) ≠ 28 := by
      rw [nalType_stapA]
      decide
    exact h.send spspps (p := e.packet (stapPayload top nals)) hseq _ (harr _ List.mem_cons_self)
      (by simp [Envelope.packet, stapPayload]) fun h28 => absurd h28 htype
  | fuA header type_mem first mids last =>
    by_cases hskip : (l₀.entered a).needIdr = true ∧ header.toNat % 32 ≠ 5
    · exact h.run_skipped marked _ (fun p hp => ⟨harr p hp, fuA_packets_eq hp⟩) hseq hskip
    · -- From the first fragment on the two receivers are the same.
      have hfirst := h.send_first spspps hseq
        (marked && (Group.tailPackets header mids last).isEmpty)
        (harr _ List.mem_cons_self) (hgap rfl) hskip
      rw [Group.packets, wireMarked, Link.run_cons, Link.run_cons, hfirst]
      exact ⟨_, _, _, rfl⟩

variable (spspps) in
/-- A unit that arrives whole leaves no trace of what was left in `fu`. -/
theorem run_forgets (marked : Bool) (gs : List Group) :
    ∀ {l l₀ : Link (List (List UInt8))}, ButFu l l₀ → l₀.SeqInv →
      (∃ b, (bufferedView spspps).Raw l₀.out (l₀.entered a) b) →
      (∀ p ∈ groupPackets gs, p.arrives = true) →
      (∀ g gs', gs = g :: gs' → g.isFuA = true → l₀.gap = false) →
        ButFu (l.run (h264Handler bufferedStore spspps) (wireMarked a marked (groupPackets gs)))
          (l₀.run (h264Handler bufferedStore spspps)
            (wireMarked a marked (groupPackets gs))) := by
  induction gs with
  | nil =>
    intro l l₀ h _ _ _ _
    exact h
  | cons g gs ih =>
    intro l l₀ h hseq hraw harr hgap
    rw [groupPackets_cons] at harr ⊢
    have harrG : ∀ p ∈ g.packets, p.arrives = true := fun p hp =>
      harr p (List.mem_append_left _ hp)
    have hgroup := h.run_group spspps (a := a) hseq
      (marked && (groupPackets gs).isEmpty) g harrG (hgap g gs rfl)
    rw [wireMarked_append, Link.run_append, Link.run_append]
    cases hgs : (groupPackets gs).isEmpty with
    | true =>
      rw [List.isEmpty_iff.1 hgs] at hgroup ⊢
      exact hgroup
    | false =>
      rw [hgs, Bool.and_false] at hgroup
      rw [Bool.and_false]
      obtain ⟨l₁, hrun, hin, -, b, hb⟩ := run_stays (bufferedLaw spspps) harrG
        (fun p hp => g.payload_ne_nil hp) g.packets_ne_nil hseq hraw
      rw [hrun] at hgroup ⊢
      exact ih hgroup hin.seq ⟨b, hin.raw (bufferedLaw spspps) hb⟩
        (fun p hp => harr p (List.mem_append_right _ hp)) fun _ _ _ _ => hin.gap

theorem Ended.of_butFu {s : List (List UInt8)} {st st₀ : H264RtpState} {kept : List Nal}
    (hst : ∃ fu n active, st₀ = st.withFu fu n active) (h : ButFu l l₀)
    (hended : Ended (bufferedView spspps) spspps s st₀ kept l₀) :
    Ended (bufferedView spspps) spspps s st kept l := by
  obtain ⟨fu₀, n₀, active₀, rfl⟩ := hst
  obtain ⟨fu, n, active, rfl⟩ := h
  obtain ⟨hem, ⟨hseq, hraw, hopen, -⟩, hlost, hbad, hneed, hidr⟩ := hended
  exact ⟨hem, ⟨⟨hseq.haveSeq, hseq.lastSeq⟩, hraw, hopen, fun hnone => by simp [hlost] at hnone⟩,
    hlost, hbad, hneed, hidr⟩

/-- A unit within the sizes of `fu` and `au` that arrives whole is emitted, whatever is left in
`fu`. -/
theorem unit_taken_buffered (u : H264Unit) (hseq : l.SeqInv)
    (hclean : (l.entered u.accessUnit).auBad = false)
    (hraw : (bufferedView spspps).Raw l.out (l.entered u.accessUnit) [])
    (harr : ∀ p ∈ groupPackets u.groups, p.arrives = true) (hhead : HeadSafe l.gap u)
    (hfits : ∀ g ∈ u.groups, g.Fits (bufferedView spspps))
    (hsize : (render spspps u.nals).length ≤ auSize) :
    Ended (bufferedView spspps) spspps l.out (l.entered u.accessUnit)
      (groupKept (l.entered u.accessUnit).needIdr u.groups)
      (l.run (h264Handler bufferedStore spspps) u.accessUnit.wire) := by
  -- The same receiver with nothing in `fu`: it takes the unit, and what was in `fu` is forgotten.
  generalize hl₀ : ({ l with st := l.st.withFu [] 0 false } : Link (List (List UInt8))) = l₀
  have hbut : ButFu l l₀ := ⟨l.st.fu, l.st.fuLen, l.st.fuActive, by rw [← hl₀]; rfl⟩
  have hbut₀ : ButFu l₀ l := ⟨[], 0, false, hl₀.symm⟩
  have hact₀ : l₀.st.fuActive = false := by rw [← hl₀]; rfl
  have hactE : (l₀.entered u.accessUnit).fuActive = false := by
    rcases l₀.entered_cases u.accessUnit with ⟨-, -, heq⟩ | ⟨-, -, -, heq⟩ | ⟨-, heq⟩ <;>
      simp [heq, Link.checked, rtpAuReset, hact₀]
  have hseq₀ := hbut₀.seq hseq
  obtain ⟨hout, -, -, hgap⟩ := hbut.same
  obtain ⟨fu, n, active, hent⟩ := hbut₀.entered u.accessUnit
  have hclean₀ : (l₀.entered u.accessUnit).auBad = false := by rw [hent]; exact hclean
  have hraw₀ : (bufferedView spspps).Raw l₀.out (l₀.entered u.accessUnit) [] := by
    rw [hent]
    exact hraw
  have hneed₀ : (l₀.entered u.accessUnit).needIdr = (l.entered u.accessUnit).needIdr := by
    rw [hent]
    rfl
  have hroom₀ : (bufferedView spspps).Room l₀.out (l₀.entered u.accessUnit)
      (render spspps u.nals).length := by
    have hlen : (l₀.entered u.accessUnit).auLen = 0 := hraw₀.1
    simp only [bufferedView, hlen, hactE, Bool.false_eq_true, if_false, Nat.zero_add]
    exact hsize
  have hended₀ := unit_taken (bufferedLaw spspps) (bufferedRoom spspps) u hseq₀ hclean₀ hraw₀ harr
    (by rwa [← hgap]) hfits hroom₀
  have hwire : u.accessUnit.wire = wireMarked u.accessUnit true (groupPackets u.groups) :=
    wirePackets_eq_wireMarked _ _
  have hrun := run_forgets spspps (a := u.accessUnit) true u.groups hbut hseq₀
    ⟨[], hraw₀⟩ harr fun g gs hgs hfu => by rw [← hgap]; exact hhead g gs hgs hfu
  rw [← hwire] at hrun
  rw [hneed₀, ← hout] at hended₀
  exact hended₀.of_butFu ⟨fu, n, active, hent⟩ hrun

end Forget

end Stream
end ToonVpu
