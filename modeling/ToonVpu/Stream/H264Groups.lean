import ToonVpu.Stream.H264Unit

/-!
# H264Groups — groups of packets that arrive up to the end of their unit

A group that arrives whole is taken: its NAL units are appended, but for those that a waiting
handler drops.  Of an FU-A group whose first fragment is missing, or is the packet on which a gap
shows, nothing is appended; whether the unit is marked bad then depends on the store.
-/

namespace ToonVpu
namespace Stream

open Foundation
open Lib

/-! ## Groups that arrive whole -/

/-- There is room for what each delivered packet adds. -/
def Roomy {α : Type*} (V : StoreView α) (S : AuStore α) (spspps : List UInt8) :
    Link α → List WirePacket → Prop
  | _, [] => True
  | l, w :: ws =>
    (w.packet.arrives = true → V.Room l.out (l.entered w.unit)
      (added spspps l.gap (l.entered w.unit).needIdr w.packet.payload).length) ∧
      Roomy V S spspps (l.send (h264Handler S spspps) w) ws

/-- The flush at the end of a unit. -/
def Link.finish {α : Type*} (S : AuStore α) (marked : Bool) (l : Link α) : Link α :=
  { l with
    out := (closeUnit S marked (l.out, l.st)).1, st := (closeUnit S marked (l.out, l.st)).2 }

/-- The store takes the fragmented NAL unit of a group. -/
def Group.Fits {α : Type*} (V : StoreView α) (g : Group) : Prop :=
  g.isFuA = true → ∀ n ∈ g.nals, V.Fits n.bytes.length

/-- The rest of a unit from which an append failed: nothing is emitted. -/
def Overflowed {α : Type*} (V : StoreView α) (S : AuStore α) (spspps : List UInt8) (l : Link α)
    (ws : List WirePacket) : Prop :=
  V.emitted (l.run (h264Handler S spspps) ws).out = V.emitted l.out ∧
    Boundary V (l.run (h264Handler S spspps) ws) ∧
    (l.run (h264Handler S spspps) ws).lost ≠ none ∧ ¬ Roomy V S spspps l ws

/-- From the state `st`, packets of `a` were taken, and all appends went well. -/
structure Took {α : Type*} (V : StoreView α) (s : α) (st : H264RtpState) (a : AccessUnit)
    (idr : Bool) (l₁ : Link α) : Prop where
  inside : Inside l₁ a
  emitted : V.emitted l₁.out = V.emitted s
  need : l₁.st.needIdr = st.needIdr
  bad : l₁.st.auBad = false
  hasIdr : l₁.st.auHasIdr = (st.auHasIdr || idr)

theorem Took.trans {α : Type*} {V : StoreView α} {s : α} {st : H264RtpState} {a : AccessUnit}
    {i j : Bool} {l₁ l₂ : Link α} (h : Took V s st a i l₁) (h' : Took V l₁.out l₁.st a j l₂) :
    Took V s st a (i || j) l₂ :=
  ⟨h'.inside, h'.emitted.trans h.emitted, h'.need.trans h.need, h'.bad,
    by rw [h'.hasIdr, h.hasIdr, Bool.or_assoc]⟩

section Groups

variable {α : Type*} {S : AuStore α} {spspps : List UInt8} {silent : Bool} {V : StoreView α}
  {l : Link α} {a : AccessUnit} {p : Packet} {b : List UInt8}

theorem roomy_append (us ws : List WirePacket) :
    Roomy V S spspps l (us ++ ws) ↔
      Roomy V S spspps l us ∧ Roomy V S spspps (l.run (h264Handler S spspps) us) ws := by
  induction us generalizing l with
  | nil => simp [Roomy]
  | cons u us ih => rw [List.cons_append, Roomy, Roomy, ih, Link.run_cons, and_assoc]

theorem gapsVisible_of_arrives {ps : List Packet} {marked : Bool}
    (harr : ∀ p ∈ ps, p.arrives = true) : GapsVisible (some 0) (wireMarked a marked ps) := by
  induction ps with
  | nil => trivial
  | cons p ps ih =>
    have hp := harr p List.mem_cons_self
    refine ⟨fun _ n hn _ => by simpa using hn.symm, ?_⟩
    simp only [lostAfter, List.foldl_cons, List.foldl_nil, hp, if_true]
    exact ih fun q hq => harr q (List.mem_cons_of_mem p hq)

theorem Overflowed.of_append {us ws : List WirePacket}
    (hem : V.emitted (l.run (h264Handler S spspps) us).out = V.emitted l.out)
    (h : Overflowed V S spspps (l.run (h264Handler S spspps) us) ws) :
    Overflowed V S spspps l (us ++ ws) := by
  unfold Overflowed at h ⊢
  rw [Link.run_append]
  obtain ⟨hem', hbd, hlost, hroom⟩ := h
  exact ⟨hem'.trans hem, hbd, hlost, fun hr => hroom ((roomy_append us ws).1 hr).2⟩

theorem payload_cons_ne_nil {rest : List Packet} (hp : p.payload ≠ [])
    (hne : ∀ q ∈ rest, q.payload ≠ []) : ∀ q ∈ p :: rest, q.payload ≠ [] := by
  intro q hq
  rcases List.mem_cons.1 hq with rfl | hmem
  · exact hp
  · exact hne q hmem

/-- One packet whose payload is absorbed by appends. -/
theorem deliver_grows (law : StoreLaw S spspps silent V) (hseq : l.SeqInv)
    (hclean : (l.entered a).auBad = false) {rest : List Packet} (harr : p.arrives = true)
    (hrest : ∀ q ∈ rest, q.arrives = true) (hne : ∀ q ∈ p :: rest, q.payload ≠ [])
    {bytes : List UInt8} {idr : Bool} {r : α × H264RtpState} {D : Prop}
    (hr : absorb S spspps l.out (l.entered a) l.gap p.payload = (r.1, r.2, true))
    (hgrows : V.Grows l.out (l.entered a) bytes idr r D)
    (hbytes : bytes = added spspps l.gap (l.entered a).needIdr p.payload) :
    (l.send (h264Handler S spspps) ⟨a, p, rest.isEmpty⟩ = (l.after r).finish S rest.isEmpty ∧
        Took V l.out (l.entered a) a idr (l.after r) ∧ D) ∨
      Overflowed V S spspps l (wireMarked a true (p :: rest)) := by
  obtain ⟨hem, hk, hidr, ⟨hb, hd, -⟩ | ⟨hb, ⟨b', hraw⟩, hfull⟩⟩ := hgrows
  · left
    refine ⟨?_, ⟨.of_after hk.1, hem, hk.2, hb.trans hclean, hidr⟩, hd⟩
    rw [send_absorb hseq harr (hne p List.mem_cons_self), hr]
    rfl
  · right
    obtain ⟨l', heq, hem', hbd, hlost, -⟩ := bad_finish law hseq harr hne hr hem hk hb hraw
      (gapsVisible_of_arrives hrest)
    unfold Overflowed
    rw [heq]
    refine ⟨hem', hbd, hlost, ?_⟩
    intro hroomy
    refine hfull 0 ?_
    rw [hbytes, Nat.add_zero]
    exact hroomy.1 harr

section Fragments

variable {header : UInt8} {f : Fragment} {start stop : Bool}

theorem absorb_fragment (s : α) (st : H264RtpState) (seqGap : Bool) :
    absorb S spspps s st seqGap (f.packet header start stop).payload =
      S.fuA spspps s st seqGap (f.packet header start stop).payload := by
  simp [absorb]

theorem added_fragment (seqGap need : Bool) :
    added spspps seqGap need (f.packet header start stop).payload =
      if seqGap = true ∨ need = true ∧ header.toNat % 32 ≠ 5 then []
      else if start then pendOf spspps [header] ++ startCode ++ header :: f.data else f.data := by
  simp [added]

theorem fragment_payload_ne_nil : (f.packet header start stop).payload ≠ [] := by
  simp [Fragment.packet, Envelope.packet]

theorem Took.of_inside {idr : Bool} {l₁ : Link α} (hin : Inside l a)
    (h : Took V l.out (l.entered a) a idr l₁) : Took V l.out l.st a idr l₁ := by
  obtain ⟨hinside, hem, hneed, hbad, hidr⟩ := h
  rw [hin.entered] at hneed hidr
  exact ⟨hinside, hem, hneed, hbad, hidr⟩

/-- A fragment behind one that was taken. -/
theorem deliver_fragment (law : StoreLaw S spspps silent V) (hin : Inside l a)
    (hgo : ¬ (l.st.needIdr = true ∧ header.toNat % 32 ≠ 5)) (hclean : l.st.auBad = false)
    {rest : List Packet} (harr : f.envelope.arrives = true)
    (hrest : ∀ q ∈ rest, q.arrives = true) (hne : ∀ q ∈ rest, q.payload ≠ [])
    {r : α × H264RtpState × Bool} {D : Prop}
    (hr : S.fuA spspps l.out (l.entered a) false (f.packet header false stop).payload = r)
    (hok : r.2.2 = true)
    (hgrows : V.Grows l.out (l.entered a) f.data false (r.1, r.2.1) D) :
    (l.send (h264Handler S spspps) ⟨a, f.packet header false stop, rest.isEmpty⟩ =
          (l.after (r.1, r.2.1)).finish S rest.isEmpty ∧
        Took V l.out l.st a false (l.after (r.1, r.2.1)) ∧ D) ∨
      Overflowed V S spspps l (wireMarked a true (f.packet header false stop :: rest)) := by
  have hentered := hin.entered
  have hadded : f.data =
      added spspps l.gap (l.entered a).needIdr (f.packet header false stop).payload := by
    rw [added_fragment, hin.gap, hentered, if_neg (by simpa using hgo)]
    rfl
  have habsorb : absorb S spspps l.out (l.entered a) l.gap
      (f.packet header false stop).payload = (r.1, r.2.1, true) := by
    rw [absorb_fragment, hin.gap, hr, ← hok]
  rcases deliver_grows law hin.seq (by rw [hentered]; exact hclean) harr hrest
    (payload_cons_ne_nil fragment_payload_ne_nil hne) habsorb hgrows hadded with
    ⟨hsend, htook, hd⟩ | hover
  · exact .inl ⟨hsend, htook.of_inside hin, hd⟩
  · exact .inr hover

theorem arrives_of_mem_tailPackets {mids : List Fragment} {last : Fragment}
    (hmids : ∀ f ∈ mids, f.envelope.arrives = true) (hlast : last.envelope.arrives = true) :
    ∀ q ∈ Group.tailPackets header mids last, q.arrives = true := by
  intro q hq
  simp only [Group.tailPackets, List.mem_append, List.mem_map, List.mem_singleton] at hq
  rcases hq with ⟨f, hf, rfl⟩ | rfl
  · exact hmids f hf
  · exact hlast

theorem payload_of_mem_tailPackets {mids : List Fragment} {last : Fragment} :
    ∀ q ∈ Group.tailPackets header mids last, q.payload ≠ [] := by
  intro q hq
  simp only [Group.tailPackets, List.mem_append, List.mem_map, List.mem_singleton] at hq
  rcases hq with ⟨f, -, rfl⟩ | rfl <;> exact fragment_payload_ne_nil

theorem Inside.go (hin : Inside l a) (hgo : ¬ (l.st.needIdr = true ∧ header.toNat % 32 ≠ 5))
    (f : Fragment) (start stop : Bool) :
    ¬ ((l.entered a).needIdr = true ∧ fuType (f.packet header start stop).payload ≠ 5) := by
  rw [hin.entered, fuType_fragment]
  exact hgo

/-- The fragments behind one that was taken. -/
theorem run_fragments (law : StoreLaw S spspps silent V) {rest : List Packet}
    (hrest : ∀ q ∈ rest, q.arrives = true) (hne : ∀ q ∈ rest, q.payload ≠ [])
    (last : Fragment) (hlast : last.envelope.arrives = true) (mids : List Fragment) :
    ∀ {l : Link α} {q : List UInt8}, (∀ f ∈ mids, f.envelope.arrives = true) → Inside l a →
      ¬ (l.st.needIdr = true ∧ header.toNat % 32 ≠ 5) → l.st.auBad = false →
      V.Part l.out l.st b q → q ≠ [] →
      V.Fits (q.length + (mids.flatMap Fragment.data ++ last.data).length) →
        (∃ l₁, l.run (h264Handler S spspps)
              (wireMarked a rest.isEmpty (Group.tailPackets header mids last)) =
            l₁.finish S rest.isEmpty ∧ Took V l.out l.st a false l₁ ∧
            V.Raw l₁.out l₁.st (b ++ (pendOf spspps q ++ startCode ++
              (q ++ (mids.flatMap Fragment.data ++ last.data))))) ∨
          Overflowed V S spspps l
            (wireMarked a true (Group.tailPackets header mids last ++ rest)) := by
  induction mids with
  | nil =>
    intro l q _ hin hgo hclean hpart hq hfits
    have hpart' : V.Part l.out (l.entered a) b q := by
      rw [hin.entered]
      exact law.part_of hpart rfl rfl rfl rfl rfl
    obtain ⟨hok, hgrows⟩ := law.fuLast hpart' (hin.go hgo last false true)
      fuStart_fragment fuEnd_fragment (by simpa using hfits) hq
    rcases deliver_fragment law hin hgo hclean hlast hrest hne rfl hok hgrows with
      ⟨hsend, htook, hraw⟩ | hover
    · refine .inl ⟨_, ?_, htook, ?_⟩
      · simpa [Group.tailPackets, wireMarked] using hsend
      · exact hraw
    · exact .inr hover
  | cons f mids ih =>
    intro l q harr hin hgo hclean hpart hq hfits
    have hpart' : V.Part l.out (l.entered a) b q := by
      rw [hin.entered]
      exact law.part_of hpart rfl rfl rfl rfl rfl
    have hmids : ∀ x ∈ mids, x.envelope.arrives = true := fun x hx =>
      harr x (List.mem_cons_of_mem f hx)
    have hfits' : V.Fits ((q ++ f.data).length +
        (mids.flatMap Fragment.data ++ last.data).length) := by
      simpa [List.append_assoc, Nat.add_assoc] using hfits
    obtain ⟨hok, hgrows⟩ := law.fuNext hpart' (hin.go hgo f false false)
      fuStart_fragment fuEnd_fragment
      (law.fits_mono hfits' (by simp)) hq
    have htail : (Group.tailPackets header mids last ++ rest).isEmpty = false := by
      simp [Group.tailPackets]
    have hmarker : (rest.isEmpty && (Group.tailPackets header mids last).isEmpty) = false := by
      simp [Group.tailPackets]
    rcases deliver_fragment law hin hgo hclean (harr f List.mem_cons_self)
      (fun x hx => (List.mem_append.1 hx).elim (arrives_of_mem_tailPackets hmids hlast x)
        (hrest x))
      (fun x hx => (List.mem_append.1 hx).elim (payload_of_mem_tailPackets x) (hne x))
      rfl hok hgrows with ⟨hsend, htook, hnext⟩ | hover
    · rw [htail] at hsend
      -- The fragment is not the last packet of the unit, so there is no flush behind it.
      have hkeep : ∀ l₁ : Link α, l₁.finish S false = l₁ := fun _ => rfl
      rw [hkeep] at hsend
      have hcons : wireMarked a rest.isEmpty (Group.tailPackets header (f :: mids) last) =
          ⟨a, f.packet header false false, false⟩ ::
            wireMarked a rest.isEmpty (Group.tailPackets header mids last) := by
        rw [show Group.tailPackets header (f :: mids) last =
          f.packet header false false :: Group.tailPackets header mids last from rfl,
          wireMarked, hmarker]
      have hover₀ : wireMarked a true (Group.tailPackets header (f :: mids) last ++ rest) =
          [⟨a, f.packet header false false, false⟩] ++
            wireMarked a true (Group.tailPackets header mids last ++ rest) := by
        rw [show Group.tailPackets header (f :: mids) last ++ rest =
          f.packet header false false :: (Group.tailPackets header mids last ++ rest) from rfl,
          wireMarked, htail]
        rfl
      rcases ih hmids htook.inside (by rw [htook.need]; exact hgo) htook.bad hnext
        (by simp [hq]) hfits' with ⟨l₁, hrun, htook', hraw⟩ | hover
      · refine .inl ⟨l₁, ?_, htook.trans htook', ?_⟩
        · rw [hcons, Link.run_cons, hsend]
          exact hrun
        · rw [pendOf_append hq] at hraw
          simpa [List.append_assoc] using hraw
      · right
        rw [hover₀]
        refine .of_append ?_ ?_
        · rw [Link.run_cons, Link.run_nil, hsend]
          exact htook.emitted
        · rw [Link.run_cons, Link.run_nil, hsend]
          exact hover
    · exact .inr hover

/-- A fragment that the handler passes over. -/
theorem deliver_skip (law : StoreLaw S spspps silent V) (start stop marked : Bool)
    (hseq : l.SeqInv) (hclean : (l.entered a).auBad = false) (harr : f.envelope.arrives = true)
    (hskip : l.gap = true ∨ (l.entered a).needIdr = true ∧ header.toNat % 32 ≠ 5) :
    l.send (h264Handler S spspps) ⟨a, f.packet header start stop, marked⟩ =
        (l.after (l.out, l.entered a)).finish S marked ∧
      Took V l.out (l.entered a) a false (l.after (l.out, l.entered a)) := by
  have habsorb : absorb S spspps l.out (l.entered a) l.gap
      (f.packet header start stop).payload = (l.out, l.entered a, true) := by
    rw [absorb_fragment]
    exact law.fuSkip (by rwa [fuType_fragment])
  refine ⟨?_, .of_after ⟨rfl, rfl, rfl, rfl⟩, rfl, rfl, hclean, by simp [Link.after]⟩
  rw [send_absorb (p := f.packet header start stop) hseq harr fragment_payload_ne_nil, habsorb]
  rfl

/-- Fragments that a waiting handler passes over. -/
theorem run_skipped (law : StoreLaw S spspps silent V) (marked : Bool) (ps : List Packet)
    (hfrag : ∀ p ∈ ps, p.arrives = true ∧ ∃ (f : Fragment) (start stop : Bool),
      p = f.packet header start stop) :
    ∀ {l : Link α}, ps ≠ [] → l.SeqInv → (l.entered a).auBad = false →
      (l.entered a).needIdr = true ∧ header.toNat % 32 ≠ 5 → V.Raw l.out (l.entered a) b →
        ∃ l₁, l.run (h264Handler S spspps) (wireMarked a marked ps) = l₁.finish S marked ∧
          Took V l.out (l.entered a) a false l₁ ∧ V.Raw l₁.out l₁.st b := by
  induction ps with
  | nil =>
    intro l hps
    exact absurd rfl hps
  | cons p ps ih =>
    intro l _ hseq hclean hskip hraw
    obtain ⟨harr, f, start, stop, rfl⟩ := hfrag p List.mem_cons_self
    obtain ⟨hsend, htook⟩ := deliver_skip law start stop (marked && ps.isEmpty) hseq hclean
      harr (.inr hskip)
    rw [wireMarked, Link.run_cons, hsend]
    cases hps : ps.isEmpty with
    | true =>
      obtain rfl : ps = [] := List.isEmpty_iff.1 hps
      rw [Bool.and_true]
      exact ⟨_, rfl, htook, hraw⟩
    | false =>
      have hin := htook.inside
      rw [Bool.and_false]
      obtain ⟨l₁, hrun, htook', hraw'⟩ := ih (fun q hq => hfrag q (List.mem_cons_of_mem _ hq))
        (by simpa [List.isEmpty_iff] using hps) hin.seq (by rw [hin.entered]; exact htook.bad)
        (by rw [hin.entered]; exact hskip) (hin.raw law hraw)
      exact ⟨l₁, hrun, htook.trans (htook'.of_inside hin), hraw'⟩

end Fragments

theorem fuA_packets_eq {header : UInt8} {type_mem} {first last : Fragment} {mids : List Fragment}
    {p : Packet} (h : p ∈ (Group.fuA header type_mem first mids last).packets) :
    ∃ (f : Fragment) (start stop : Bool), p = f.packet header start stop := by
  simp only [Group.packets, Group.tailPackets, List.mem_cons, List.mem_append, List.mem_map,
    List.not_mem_nil, or_false] at h
  obtain rfl | ⟨f, -, rfl⟩ | rfl := h
  · exact ⟨first, true, false, rfl⟩
  · exact ⟨f, false, false, rfl⟩
  · exact ⟨last, false, true, rfl⟩

/-! What the packet forms add, in terms of the NAL units in them. -/

theorem nalAdded_bytes (need : Bool) (n : Nal) :
    nalAdded spspps need n.bytes = render spspps ([n].filter (Nal.passes need)) := by
  unfold nalAdded
  rw [nalType_bytes]
  by_cases hskip : need = true ∧ n.type ≠ 5 ∧ n.type ≠ 7 ∧ n.type ≠ 8
  · have hno : n.passes need = false := by simp [Nal.passes, hskip]
    rw [if_pos hskip, List.filter_cons_of_neg (by simp [hno])]
    rfl
  · have hyes : n.passes need = true := by
      unfold Nal.passes
      cases need with
      | false => rfl
      | true =>
        simp only [true_and, ne_eq] at hskip
        simp only [Bool.not_true, Bool.false_or, decide_eq_true_eq]
        tauto
    rw [if_neg hskip, List.filter_cons_of_pos hyes]
    simp [render]

theorem isIdr_filter_passes (need : Bool) (n : Nal) :
    decide (nalType n.bytes = 5) = ([n].filter (Nal.passes need)).any Nal.isIdr := by
  rw [nalType_bytes]
  by_cases hfive : n.type = 5
  · have hyes : n.passes need = true := by simp [Nal.passes, hfive]
    simp [hyes, hfive, Nal.isIdr]
  · cases hpass : n.passes need <;> simp [hpass, hfive, Nal.isIdr]

theorem flatMap_nalAdded (need : Bool) (nals : List Nal) :
    (nals.map Nal.bytes).flatMap (nalAdded spspps need) =
      render spspps (nals.filter (Nal.passes need)) := by
  induction nals with
  | nil => rfl
  | cons n nals ih =>
    rw [List.map_cons, List.flatMap_cons, ih, nalAdded_bytes, ← render_append,
      ← List.filter_append]
    rfl

theorem any_isIdr (need : Bool) (nals : List Nal) :
    ((nals.map Nal.bytes).any fun nal => decide (nalType nal = 5)) =
      (nals.filter (Nal.passes need)).any Nal.isIdr := by
  induction nals with
  | nil => rfl
  | cons n nals ih =>
    rw [List.map_cons, List.any_cons, ih, isIdr_filter_passes need, ← List.any_append,
      ← List.filter_append]
    rfl

theorem length_le_stapA (nals : List Nal) {x : UInt8} :
    nals.length ≤ (x :: nals.flatMap fun n => be16 n.bytes.length ++ n.bytes).length := by
  induction nals with
  | nil => exact Nat.zero_le _
  | cons n nals ih =>
    simp only [List.flatMap_cons, List.length_cons, List.length_append, length_be16] at ih ⊢
    omega

/-- The payload of a STAP-A packet. -/
def stapPayload (top : Fin 8) (nals : List Nal) : List UInt8 :=
  UInt8.ofNat (top * 32 + 24) :: nals.flatMap fun n => be16 n.bytes.length ++ n.bytes

theorem nalType_stapA (top : Fin 8) (nals : List Nal) : nalType (stapPayload top nals) = 24 := by
  simp only [nalType, byteAt, stapPayload, List.getD_cons_zero, UInt8.toNat_ofNat']
  omega

theorem stapNals_stapA (top : Fin 8) (nals : List Nal)
    (short : ∀ n ∈ nals, n.bytes.length < 65536) :
    stapNals (stapPayload top nals).length ((stapPayload top nals).drop 1) =
      nals.map Nal.bytes :=
  stapNals_encode nals short _ (length_le_stapA nals)

variable (spspps) in
theorem added_stapA (top : Fin 8) (nals : List Nal) (short : ∀ n ∈ nals, n.bytes.length < 65536)
    (seqGap need : Bool) :
    added spspps seqGap need (stapPayload top nals) =
      render spspps (nals.filter (Nal.passes need)) := by
  have htype := nalType_stapA top nals
  have hone : ¬ (1 ≤ nalType (stapPayload top nals) ∧ nalType (stapPayload top nals) ≤ 23) := by
    omega
  rw [added, if_neg hone, if_pos htype, stapNals_stapA top nals short, flatMap_nalAdded]

/-- What a run over a group that arrives whole leads to, with `rest` still to come in the unit: the
group is taken, up to what a waiting handler drops of it, or an append failed. -/
def GroupRun (V : StoreView α) (S : AuStore α) (spspps : List UInt8) (l : Link α) (a : AccessUnit)
    (b : List UInt8) (g : Group) (rest : List Packet) : Prop :=
  (∃ l₁, l.run (h264Handler S spspps) (wireMarked a rest.isEmpty g.packets) =
        l₁.finish S rest.isEmpty ∧
      Took V l.out (l.entered a) a ((g.kept (l.entered a).needIdr).any Nal.isIdr) l₁ ∧
      V.Raw l₁.out l₁.st (b ++ render spspps (g.kept (l.entered a).needIdr))) ∨
    Overflowed V S spspps l (wireMarked a true (g.packets ++ rest))

section Forms

variable (law : StoreLaw S spspps silent V) (hseq : l.SeqInv)
  (hclean : (l.entered a).auBad = false) (hraw : V.Raw l.out (l.entered a) b)
  {rest : List Packet} (hrest : ∀ q ∈ rest, q.arrives = true) (hne : ∀ q ∈ rest, q.payload ≠ [])

include law hseq hclean hraw hrest hne

theorem run_single (e : Envelope) (nal : Nal) (harr : e.arrives = true) :
    GroupRun V S spspps l a b (.single e nal) rest := by
  have htype : 1 ≤ nalType nal.bytes ∧ nalType nal.bytes ≤ 23 := nal.type_mem
  have hbytes : nal.bytes ≠ [] := by simp [Nal.bytes]
  have hgrows := h264Nal_grows law hraw hbytes
  rw [nalAdded_bytes, isIdr_filter_passes (l.entered a).needIdr] at hgrows
  have hadded : render spspps ([nal].filter (Nal.passes (l.entered a).needIdr)) =
      added spspps l.gap (l.entered a).needIdr (e.packet nal.bytes).payload := by
    rw [added, Envelope.packet, if_pos htype, nalAdded_bytes]
  have habsorb : absorb S spspps l.out (l.entered a) l.gap (e.packet nal.bytes).payload =
      (_, _, true) := if_pos htype
  rcases deliver_grows law hseq hclean harr hrest (payload_cons_ne_nil hbytes hne) habsorb hgrows
    hadded with ⟨hsend, htook, hd⟩ | hover
  · exact .inl ⟨_, by simpa [Group.packets, wireMarked] using hsend, htook, hd⟩
  · exact .inr hover

theorem run_stapA (e : Envelope) (top : Fin 8) (nals : List Nal)
    (short : ∀ n ∈ nals, n.bytes.length < 65536) (harr : e.arrives = true) :
    GroupRun V S spspps l a b (.stapA e top nals short) rest := by
  have htype := nalType_stapA top nals
  have hwalk := stapNals_stapA top nals short
  have hadded := added_stapA spspps top nals short l.gap (l.entered a).needIdr
  have hpackets : (Group.stapA e top nals short).packets = [e.packet (stapPayload top nals)] := rfl
  generalize stapPayload top nals = payload at htype hwalk hadded hpackets
  have hone : ¬ (1 ≤ nalType payload ∧ nalType payload ≤ 23) := by omega
  have hpos : (e.packet payload).payload ≠ [] := by
    intro hnil
    rw [show payload = [] from hnil] at htype
    exact absurd htype (by decide)
  have hbytes : ∀ nal ∈ nals.map Nal.bytes, nal ≠ [] := by
    intro nal hnal
    obtain ⟨n, -, rfl⟩ := List.mem_map.1 hnal
    simp [Nal.bytes]
  have hgrows := h264Nals_grows law hraw hbytes
  rw [flatMap_nalAdded, any_isIdr (l.entered a).needIdr] at hgrows
  have habsorb : absorb S spspps l.out (l.entered a) l.gap payload =
      (((nals.map Nal.bytes).foldl (h264Nal S spspps) (l.out, l.entered a)).1,
        ((nals.map Nal.bytes).foldl (h264Nal S spspps) (l.out, l.entered a)).2, true) := by
    rw [absorb, if_neg hone, if_pos htype, hwalk]
  unfold GroupRun
  rw [hpackets]
  rcases deliver_grows law hseq hclean harr hrest (payload_cons_ne_nil hpos hne) habsorb hgrows
    hadded.symm with ⟨hsend, htook, hd⟩ | hover
  · exact .inl ⟨_, by simpa [wireMarked] using hsend, htook, hd⟩
  · exact .inr hover

/-- The first fragment of a NAL unit that is not dropped. -/
theorem deliver_first {header : UInt8} {first : Fragment} (harr : first.envelope.arrives = true)
    (hgap : l.gap = false) (hgo : ¬ ((l.entered a).needIdr = true ∧ header.toNat % 32 ≠ 5))
    (hfits : V.Fits (1 + first.data.length)) :
    (∃ l₀, l.send (h264Handler S spspps) ⟨a, first.packet header true false, rest.isEmpty⟩ =
          l₀.finish S rest.isEmpty ∧
        Took V l.out (l.entered a) a (decide (header.toNat % 32 = 5)) l₀ ∧
        V.Part l₀.out l₀.st b (header :: first.data)) ∨
      Overflowed V S spspps l (wireMarked a true (first.packet header true false :: rest)) := by
  have hgo' : ¬ ((l.entered a).needIdr = true ∧
      fuType (first.packet header true false).payload ≠ 5) := by rwa [fuType_fragment]
  obtain ⟨hok, hgrows⟩ := law.fuFirst hraw hgo' fuStart_fragment fuEnd_fragment hfits
  rw [fuHdr_fragment, fuType_fragment, drop_fragment] at hgrows
  generalize hr : S.fuA spspps l.out (l.entered a) false
    (first.packet header true false).payload = r at hok hgrows
  have hadded : pendOf spspps [header] ++ startCode ++ header :: first.data =
      added spspps l.gap (l.entered a).needIdr (first.packet header true false).payload := by
    rw [added_fragment, hgap, if_neg (by simpa using hgo)]
    rfl
  have habsorb : absorb S spspps l.out (l.entered a) l.gap
      (first.packet header true false).payload = (r.1, r.2.1, true) := by
    rw [absorb_fragment, hgap, hr, ← hok]
  rcases deliver_grows law hseq hclean harr hrest
    (payload_cons_ne_nil fragment_payload_ne_nil hne) habsorb hgrows hadded with
    ⟨hsend, htook, hd⟩ | hover
  · exact .inl ⟨_, hsend, htook, hd⟩
  · exact .inr hover

theorem run_fuA (header : UInt8) (type_mem : 1 ≤ header.toNat % 32 ∧ header.toNat % 32 ≤ 23)
    (first : Fragment) (mids : List Fragment) (last : Fragment)
    (harr : ∀ p ∈ (Group.fuA header type_mem first mids last).packets, p.arrives = true)
    (hgap : l.gap = false) (hfits : (Group.fuA header type_mem first mids last).Fits V) :
    GroupRun V S spspps l a b (.fuA header type_mem first mids last) rest := by
  have hfirst : first.envelope.arrives = true := harr _ List.mem_cons_self
  have htail : ∀ q ∈ Group.tailPackets header mids last, q.arrives = true := fun q hq =>
    harr q (List.mem_cons_of_mem _ hq)
  have hlast : last.envelope.arrives = true :=
    htail (last.packet header false true) (by simp [Group.tailPackets])
  have hmids : ∀ f ∈ mids, f.envelope.arrives = true := fun f hf =>
    htail (f.packet header false false) (List.mem_append_left _ (List.mem_map_of_mem hf))
  -- The filter drops every fragment of the NAL unit, or none.
  by_cases hskip : (l.entered a).needIdr = true ∧ header.toNat % 32 ≠ 5
  · left
    obtain ⟨l₁, hrun, htook, hraw'⟩ := run_skipped law rest.isEmpty _
      (fun p hp => ⟨harr p hp, fuA_packets_eq hp⟩) (Group.packets_ne_nil _) hseq hclean hskip hraw
    refine ⟨l₁, hrun, ?_, ?_⟩
    · rwa [Group.kept, if_pos hskip]
    · rw [Group.kept, if_pos hskip]
      simpa [render] using hraw'
  · have hnal : V.Fits ((header :: first.data).length +
        (mids.flatMap Fragment.data ++ last.data).length) := by
      have hlen := hfits rfl _ (List.mem_singleton_self _)
      simpa [Nal.bytes, Nat.add_assoc, Nat.add_comm, Nat.add_left_comm] using hlen
    have hnonempty : (Group.tailPackets header mids last ++ rest).isEmpty = false := by
      simp [Group.tailPackets]
    have hmarker : (rest.isEmpty && (Group.tailPackets header mids last).isEmpty) = false := by
      simp [Group.tailPackets]
    have hpackets : (Group.fuA header type_mem first mids last).packets =
      first.packet header true false :: Group.tailPackets header mids last := rfl
    unfold GroupRun
    rw [hpackets]
    -- The fragment with the header, then the others behind it; either may find no room.
    rcases deliver_first law hseq hclean hraw
      (fun x hx => (List.mem_append.1 hx).elim (htail x) (hrest x))
      (fun x hx => (List.mem_append.1 hx).elim (payload_of_mem_tailPackets x) (hne x))
      hfirst hgap hskip (law.fits_mono hnal (by simp; omega)) with
      ⟨l₀, hsend, htook, hpart⟩ | hover
    · rw [hnonempty] at hsend
      rcases run_fragments law hrest hne last hlast mids hmids htook.inside
        (by rw [htook.need]; exact hskip) htook.bad hpart (List.cons_ne_nil _ _) hnal with
        ⟨l₁, hrun, htook', hraw'⟩ | hover
      · left
        refine ⟨l₁, ?_, ?_, ?_⟩
        · rw [wireMarked, hmarker, Link.run_cons, hsend]
          exact hrun
        · have hidr : ((Group.fuA header type_mem first mids last).kept
              (l.entered a).needIdr).any Nal.isIdr = (decide (header.toNat % 32 = 5) || false) := by
            rw [Group.kept, if_neg hskip]
            rfl
          rw [hidr]
          exact htook.trans htook'
        · rw [Group.kept, if_neg hskip]
          simpa [Group.nals, render, Nal.bytes, pendOf, nalType, byteAt] using hraw'
      · right
        rw [List.cons_append, wireMarked, hnonempty, ← List.singleton_append]
        refine .of_append ?_ ?_
        · rw [Link.run_cons, Link.run_nil, Bool.and_false, hsend]
          exact htook.emitted
        · rw [Link.run_cons, Link.run_nil, Bool.and_false, hsend]
          exact hover
    · exact .inr hover

/-- A group that arrives whole. -/
theorem run_group (g : Group) (harr : ∀ p ∈ g.packets, p.arrives = true)
    (hgap : g.isFuA = true → l.gap = false) (hfits : g.Fits V) :
    GroupRun V S spspps l a b g rest := by
  cases g with
  | single e nal =>
    exact run_single law hseq hclean hraw hrest hne e nal (harr _ List.mem_cons_self)
  | stapA e top nals short =>
    exact run_stapA law hseq hclean hraw hrest hne e top nals short (harr _ List.mem_cons_self)
  | fuA header type_mem first mids last =>
    exact run_fuA law hseq hclean hraw hrest hne header type_mem first mids last harr (hgap rfl)
      hfits

end Forms

theorem groupPackets_cons (g : Group) (gs : List Group) :
    groupPackets (g :: gs) = g.packets ++ groupPackets gs := List.flatMap_cons

theorem isEmpty_groupPackets (gs : List Group) : (groupPackets gs).isEmpty = gs.isEmpty := by
  cases gs with
  | nil => rfl
  | cons g gs => simp [groupPackets_cons, g.packets_ne_nil]

theorem payload_of_mem_groupPackets {gs : List Group} :
    ∀ q ∈ groupPackets gs, q.payload ≠ [] := by
  intro q hq
  obtain ⟨g, -, hg⟩ := List.mem_flatMap.1 hq
  exact Group.payload_ne_nil hg

/-- The groups of a unit that arrive up to its end. -/
theorem run_groups (law : StoreLaw S spspps silent V) (gs : List Group) :
    ∀ {l : Link α} {b : List UInt8} (g : Group), l.SeqInv → (l.entered a).auBad = false →
      V.Raw l.out (l.entered a) b → (∀ p ∈ groupPackets (g :: gs), p.arrives = true) →
      (g.isFuA = true → l.gap = false) → (∀ x ∈ g :: gs, x.Fits V) →
        (∃ l₁, l.run (h264Handler S spspps) (wireMarked a true (groupPackets (g :: gs))) =
              l₁.finish S true ∧
            Took V l.out (l.entered a) a
              ((groupKept (l.entered a).needIdr (g :: gs)).any Nal.isIdr) l₁ ∧
            V.Raw l₁.out l₁.st
              (b ++ render spspps (groupKept (l.entered a).needIdr (g :: gs)))) ∨
          Overflowed V S spspps l (wireMarked a true (groupPackets (g :: gs))) := by
  -- By induction on the groups behind the first: the marker is on the last packet of all.
  induction gs with
  | nil =>
    intro l b g hseq hclean hraw harr hgap hfits
    have hone : groupPackets [g] = g.packets := List.flatMap_singleton _ _
    have hkept : groupKept (l.entered a).needIdr [g] = g.kept (l.entered a).needIdr :=
      List.flatMap_singleton _ _
    rw [hone] at harr ⊢
    rw [hkept]
    have hnone : ∀ q ∈ ([] : List Packet), q.arrives = true := by simp
    have hrun := run_group law hseq hclean hraw hnone (by simp) g harr hgap
      (hfits g List.mem_cons_self)
    rwa [GroupRun, List.append_nil] at hrun
  | cons g' gs ih =>
    intro l b g hseq hclean hraw harr hgap hfits
    rw [groupPackets_cons] at harr ⊢
    have harrG : ∀ p ∈ g.packets, p.arrives = true := fun p hp =>
      harr p (List.mem_append_left _ hp)
    have harrR : ∀ p ∈ groupPackets (g' :: gs), p.arrives = true := fun p hp =>
      harr p (List.mem_append_right _ hp)
    rcases run_group law hseq hclean hraw harrR payload_of_mem_groupPackets g harrG hgap
      (hfits g List.mem_cons_self) with ⟨l₀, hrun, htook, hraw₀⟩ | hover
    · rw [isEmpty_groupPackets] at hrun
      have hin := htook.inside
      have hneed : (l₀.entered a).needIdr = (l.entered a).needIdr := by
        rw [hin.entered]
        exact htook.need
      have hsplit : wireMarked a true (g.packets ++ groupPackets (g' :: gs)) =
          wireMarked a false g.packets ++ wireMarked a true (groupPackets (g' :: gs)) := by
        rw [wireMarked_append, isEmpty_groupPackets]
        rfl
      have hstep : l.run (h264Handler S spspps) (wireMarked a false g.packets) = l₀ := hrun
      rw [hsplit]
      rcases ih g' hin.seq (by rw [hin.entered]; exact htook.bad) (hin.raw law hraw₀) harrR
        (fun _ => hin.gap) (fun x hx => hfits x (List.mem_cons_of_mem g hx)) with
        ⟨l₁, hrun', htook', hraw₁⟩ | hover
      · left
        rw [hneed] at htook' hraw₁
        have hkept : groupKept (l.entered a).needIdr (g :: g' :: gs) =
            g.kept (l.entered a).needIdr ++ groupKept (l.entered a).needIdr (g' :: gs) :=
          List.flatMap_cons
        refine ⟨l₁, ?_, ?_, ?_⟩
        · rw [Link.run_append, hstep]
          exact hrun'
        · rw [hkept, List.any_append]
          exact htook.trans (htook'.of_inside hin)
        · rw [hkept, render_append, ← List.append_assoc]
          exact hraw₁
      · exact .inr (.of_append (by rw [hstep]; exact htook.emitted) (by rw [hstep]; exact hover))
    · exact .inr hover

end Groups

/-! ## The end of a unit -/

/-- The link at the end of a unit of which `kept` was assembled, in a clean state that started
from `st`. -/
structure Ended {α : Type*} (V : StoreView α) (spspps : List UInt8) (s : α) (st : H264RtpState)
    (kept : List Nal) (l' : Link α) : Prop where
  emitted : V.emitted l'.out = V.emitted s ++ emission spspps kept
  boundary : Boundary V l'
  lost : l'.lost = some 0
  bad : l'.st.auBad = false
  need : l'.st.needIdr =
    (st.needIdr && !(decide (kept ≠ []) && (st.auHasIdr || kept.any Nal.isIdr)))
  hasIdr : l'.st.auHasIdr = true → st.auHasIdr = true

/-- The flush of what was taken. -/
theorem Took.finish {α : Type*} {S : AuStore α} {spspps : List UInt8} {silent : Bool}
    {V : StoreView α} (law : StoreLaw S spspps silent V) {s : α} {st : H264RtpState}
    {a : AccessUnit} {kept : List Nal} {l₁ : Link α}
    (h : Took V s st a (kept.any Nal.isIdr) l₁) (hraw : V.Raw l₁.out l₁.st (render spspps kept)) :
    Ended V spspps s st kept (l₁.finish S true) := by
  obtain ⟨hst, -, hem⟩ := law.flush hraw
  have hstate : (l₁.finish S true).st = flushed l₁.st := hst
  have hpos : 0 < l₁.st.auLen ↔ kept ≠ [] := by
    rw [law.raw_len hraw, List.length_pos_iff, ne_eq, render_eq_nil]
  refine ⟨?_, .of_flush law h.inside hraw, h.inside.lost, by rw [hstate]; rfl, ?_, ?_⟩
  · have hout : V.emitted (l₁.finish S true).out = _ := hem
    rw [hout, h.emitted, emission]
    simp only [ne_eq, render_eq_nil, h.bad, and_true]
    split <;> simp_all
  · rw [hstate]
    simp only [flushed, rtpAuReset, h.need, h.bad, h.hasIdr, Bool.not_false, Bool.and_true]
    simp only [hpos]
  · intro hflag
    rw [hstate] at hflag
    exact absurd hflag Bool.false_ne_true

/-! ## Fragments whose first one is missing -/

/-- A run that emits nothing, and leaves the receiver waiting if it was. -/
def Spoiled {α : Type*} (V : StoreView α) (S : AuStore α) (spspps : List UInt8) (l : Link α)
    (a : AccessUnit) (ws : List WirePacket) : Prop :=
  ∃ l', l.run (h264Handler S spspps) ws = l' ∧ V.emitted l'.out = V.emitted l.out ∧
    Boundary V l' ∧ l'.lost ≠ none ∧ FlagClean l' ∧ ((l.entered a).needIdr = true → Waits l')

/-- A run over packets of `a` that leaves no trace, at the end of the unit if `marked`. -/
def PassedOver {α : Type*} (V : StoreView α) (S : AuStore α) (spspps : List UInt8) (l : Link α)
    (a : AccessUnit) (ps : List Packet) (marked : Bool) : Prop :=
  ∃ l', l.run (h264Handler S spspps) (wireMarked a marked ps) = l' ∧
    (marked = false → Took V l.out (l.entered a) a false l' ∧ V.Raw l'.out l'.st []) ∧
    (marked = true → Ended V spspps l.out (l.entered a) [] l')

section Headless

variable {α : Type*} {S : AuStore α} {spspps : List UInt8} {silent : Bool} {V : StoreView α}
  {l : Link α} {a : AccessUnit} {header : UInt8}

/-- A unit of which nothing was kept needs no flush to be at its end. -/
theorem Took.ended_nil {s : α} {st : H264RtpState} {l₁ : Link α} (h : Took V s st a false l₁)
    (hraw : V.Raw l₁.out l₁.st []) : Ended V spspps s st [] l₁ := by
  have hin := h.inside
  refine ⟨by rw [h.emitted]; simp [emission], ⟨hin.seq, ⟨[], hraw, fun _ => .inl rfl⟩, ?_, ?_⟩,
    hin.lost, h.bad, by simpa using h.need, ?_⟩
  · rw [hin.haveTs, hin.lost]
    rfl
  · intro hnone
    simp [hin.lost] at hnone
  · intro hflag
    have hidr := h.hasIdr
    rwa [hflag, Bool.or_false, eq_comm] at hidr

theorem PassedOver.of_took {ps : List Packet} {marked : Bool} {l₁ : Link α}
    (hrun : l.run (h264Handler S spspps) (wireMarked a marked ps) = l₁)
    (h : Took V l.out (l.entered a) a false l₁) (hraw : V.Raw l₁.out l₁.st []) :
    PassedOver V S spspps l a ps marked :=
  ⟨l₁, hrun, fun _ => ⟨h, hraw⟩, fun _ => h.ended_nil hraw⟩

/-- The same, where the last packet was followed by a flush. -/
theorem PassedOver.of_finish (law : StoreLaw S spspps silent V) {ps : List Packet} {marked : Bool}
    {l₁ : Link α}
    (hrun : l.run (h264Handler S spspps) (wireMarked a marked ps) = l₁.finish S marked)
    (h : Took V l.out (l.entered a) a false l₁) (hraw : V.Raw l₁.out l₁.st []) :
    PassedOver V S spspps l a ps marked := by
  cases marked with
  | false => exact .of_took hrun h hraw
  | true => exact ⟨_, hrun, fun hm => absurd hm (by simp), fun _ => h.finish law hraw⟩

/-- The buffered store passes over all fragments whose first one is missing. -/
theorem run_orphans (law : StoreLaw S spspps true V) (marked : Bool) (ps : List Packet)
    (hfrag : ∀ p ∈ ps, p.arrives = true ∧ ∃ (f : Fragment) (stop : Bool),
      p = f.packet header false stop) :
    ∀ {l : Link α}, ps ≠ [] → l.SeqInv → l.gap = false → (l.entered a).auBad = false →
      ¬ ((l.entered a).needIdr = true ∧ header.toNat % 32 ≠ 5) →
      (l.entered a).fuActive = false → V.Raw l.out (l.entered a) [] →
        ∃ l₁, l.run (h264Handler S spspps) (wireMarked a marked ps) = l₁ ∧
          Took V l.out (l.entered a) a false l₁ ∧ V.Raw l₁.out l₁.st [] := by
  induction ps with
  | nil =>
    intro l hps
    exact absurd rfl hps
  | cons p ps ih =>
    intro l _ hseq hgap hclean hgo hact hraw
    obtain ⟨harr, f, stop, rfl⟩ := hfrag p List.mem_cons_self
    have habsorb : absorb S spspps l.out (l.entered a) l.gap
        (f.packet header false stop).payload = (l.out, l.entered a, false) := by
      rw [absorb_fragment, hgap]
      exact law.fuOrphan (by rwa [fuType_fragment]) hact fuStart_fragment
    have hsend : l.send (h264Handler S spspps)
        ⟨a, f.packet header false stop, marked && ps.isEmpty⟩ = l.after (l.out, l.entered a) := by
      rw [send_absorb (p := f.packet header false stop) hseq harr fragment_payload_ne_nil, habsorb]
      rfl
    have htook : Took V l.out (l.entered a) a false (l.after (l.out, l.entered a)) :=
      ⟨.of_after ⟨rfl, rfl, rfl, rfl⟩, rfl, rfl, hclean, by simp [Link.after]⟩
    rw [wireMarked, Link.run_cons, hsend]
    by_cases hps : ps = []
    · subst hps
      exact ⟨_, rfl, htook, hraw⟩
    · have hin := htook.inside
      obtain ⟨l₁, hrun, htook', hraw'⟩ := ih (fun q hq => hfrag q (List.mem_cons_of_mem _ hq)) hps
        hin.seq hin.gap (by rw [hin.entered]; exact hclean) (by rw [hin.entered]; exact hgo)
        (by rw [hin.entered]; exact hact) (hin.raw law hraw)
      exact ⟨l₁, hrun, htook.trans (htook'.of_inside hin), hraw'⟩

/-- The direct store marks the unit bad. -/
theorem spoil_orphan (law : StoreLaw S spspps false V) {f : Fragment} (stop : Bool)
    {rest : List Packet} (hseq : l.SeqInv) (hgap : l.gap = false)
    (hgo : ¬ ((l.entered a).needIdr = true ∧ header.toNat % 32 ≠ 5))
    (hact : (l.entered a).fuActive = false) (hraw : V.Raw l.out (l.entered a) [])
    (harr : f.envelope.arrives = true) (hrest : ∀ q ∈ rest, q.arrives = true)
    (hne : ∀ q ∈ rest, q.payload ≠ []) :
    Spoiled V S spspps l a (wireMarked a true (f.packet header false stop :: rest)) := by
  have habsorb : absorb S spspps l.out (l.entered a) l.gap
      (f.packet header false stop).payload =
        (l.out, { l.entered a with auBad := true }, true) := by
    rw [absorb_fragment, hgap]
    exact law.fuOrphan (by rwa [fuType_fragment]) hact fuStart_fragment
  have hraw' : V.Raw l.out { l.entered a with auBad := true } [] := law.raw_of hraw rfl rfl
  exact bad_finish (p := f.packet header false stop) law hseq harr
    (payload_cons_ne_nil fragment_payload_ne_nil hne) habsorb rfl (Keeps.refl _) rfl hraw'
    (gapsVisible_of_arrives hrest)

/-- The packets of an FU-A group of which the first fragment is missing, or is passed over because
the gap shows on it. -/
theorem run_headless (law : StoreLaw S spspps silent V) {f : Fragment} {start stop : Bool}
    {ps rest : List Packet} (hseq : l.SeqInv) (hclean : (l.entered a).auBad = false)
    (hraw : V.Raw l.out (l.entered a) []) (hact : (l.entered a).fuActive = false)
    (hstart : start = true → l.gap = true) (harr : f.envelope.arrives = true)
    (hfrag : ∀ p ∈ ps, p.arrives = true ∧ ∃ (f : Fragment) (stop : Bool),
      p = f.packet header false stop)
    (hrest : ∀ q ∈ rest, q.arrives = true) (hne : ∀ q ∈ rest, q.payload ≠ []) :
    (PassedOver V S spspps l a (f.packet header start stop :: ps) rest.isEmpty ∧
        (silent = true ∨ ((l.entered a).needIdr = true ∧ header.toNat % 32 ≠ 5) ∨
          (l.gap = true ∧ ps = []))) ∨
      (silent = false ∧ ¬ ((l.entered a).needIdr = true ∧ header.toNat % 32 ≠ 5) ∧
        Spoiled V S spspps l a (wireMarked a true (f.packet header start stop :: ps ++ rest))) := by
  have hpsArr : ∀ q ∈ ps ++ rest, q.arrives = true := by
    intro q hq
    rcases List.mem_append.1 hq with hps | hr
    · exact (hfrag q hps).1
    · exact hrest q hr
  have hpsNe : ∀ q ∈ ps ++ rest, q.payload ≠ [] := by
    intro q hq
    rcases List.mem_append.1 hq with hps | hr
    · obtain ⟨-, f', stop', rfl⟩ := hfrag q hps
      exact fragment_payload_ne_nil
    · exact hne q hr
  by_cases hskip : (l.entered a).needIdr = true ∧ header.toNat % 32 ≠ 5
  · have hall : ∀ p ∈ f.packet header start stop :: ps, p.arrives = true ∧
        ∃ (f : Fragment) (start stop : Bool), p = f.packet header start stop := by
      intro p hp
      rcases List.mem_cons.1 hp with rfl | hmem
      · exact ⟨harr, f, start, stop, rfl⟩
      · obtain ⟨hp', f', stop', heq⟩ := hfrag p hmem
        exact ⟨hp', f', false, stop', heq⟩
    obtain ⟨l₁, hrun, htook, hraw'⟩ := run_skipped law rest.isEmpty _ hall (List.cons_ne_nil _ _)
      hseq hclean hskip hraw
    exact .inl ⟨.of_finish law hrun htook hraw', .inr (.inl hskip)⟩
  by_cases hgap : l.gap = true
  · obtain ⟨hsend, htook⟩ := deliver_skip law start stop (rest.isEmpty && ps.isEmpty) hseq hclean
      harr (.inl hgap)
    have hin := htook.inside
    have hraw₀ : V.Raw (l.after (l.out, l.entered a)).out (l.after (l.out, l.entered a)).st [] :=
      hraw
    cases ps with
    | nil =>
      refine .inl ⟨.of_finish law ?_ htook hraw₀, .inr (.inr ⟨hgap, rfl⟩)⟩
      rw [List.isEmpty_nil, Bool.and_true] at hsend
      rw [wireMarked, wireMarked, List.isEmpty_nil, Bool.and_true, Link.run_cons, Link.run_nil,
        hsend]
    | cons p ps =>
      -- The first of the others finds no fragment in progress.
      rw [List.isEmpty_cons, Bool.and_false] at hsend
      have hentered := hin.entered
      have hclean₀ : ((l.after (l.out, l.entered a)).entered a).auBad = false := by
        rw [hentered]
        exact hclean
      have hgo₀ : ¬ (((l.after (l.out, l.entered a)).entered a).needIdr = true ∧
          header.toNat % 32 ≠ 5) := by
        rw [hentered]
        exact hskip
      have hact₀ : ((l.after (l.out, l.entered a)).entered a).fuActive = false := by
        rw [hentered]
        exact hact
      cases silent with
      | true =>
        obtain ⟨l₁, hrun, htook', hraw'⟩ := run_orphans law rest.isEmpty (p :: ps) hfrag
          (List.cons_ne_nil _ _) hin.seq hin.gap hclean₀ hgo₀ hact₀ (hin.raw law hraw₀)
        refine .inl ⟨.of_took ?_ (htook.trans (htook'.of_inside hin)) hraw', .inl rfl⟩
        rw [wireMarked, List.isEmpty_cons, Bool.and_false, Link.run_cons, hsend]
        exact hrun
      | false =>
        obtain ⟨hp, f', stop', rfl⟩ := hfrag p List.mem_cons_self
        obtain ⟨l', hrun, hem, hbd, hlost, hflag, hwait⟩ := spoil_orphan law stop'
          hin.seq hin.gap hgo₀ hact₀ (hin.raw law hraw₀) hp
          (fun q hq => hpsArr q (List.mem_cons_of_mem _ hq))
          (fun q hq => hpsNe q (List.mem_cons_of_mem _ hq))
        refine .inr ⟨rfl, hskip, l', ?_, hem, hbd, hlost, hflag, ?_⟩
        · rw [List.cons_append, wireMarked, List.cons_append, List.isEmpty_cons, Bool.and_false,
            Link.run_cons, hsend]
          exact hrun
        · intro hneed
          rw [hentered] at hwait
          exact hwait hneed
  · have hgap' : l.gap = false := by simpa using hgap
    obtain rfl : start = false := by
      cases start with
      | false => rfl
      | true => exact absurd (hstart rfl) hgap
    cases silent with
    | true =>
      have hall : ∀ p ∈ f.packet header false stop :: ps, p.arrives = true ∧
          ∃ (f : Fragment) (stop : Bool), p = f.packet header false stop := by
        intro p hp
        rcases List.mem_cons.1 hp with rfl | hmem
        · exact ⟨harr, f, stop, rfl⟩
        · exact hfrag p hmem
      obtain ⟨l₁, hrun, htook, hraw'⟩ := run_orphans law rest.isEmpty _ hall
        (List.cons_ne_nil _ _) hseq hgap' hclean hskip hact hraw
      exact .inl ⟨.of_took hrun htook hraw', .inl rfl⟩
    | false =>
      exact .inr ⟨rfl, hskip, spoil_orphan law stop hseq hgap' hskip hact hraw harr hpsArr hpsNe⟩

end Headless

end Stream
end ToonVpu
