import ToonVpu.Stream.H264Sender

/-!
# H264Unit — packets of an access unit, and units that are broken

What one payload and one packet do, for any store that has the laws of `H264Store`.  A unit is
broken once a packet is missing behind one that arrived: nothing of it is emitted any more.
-/

namespace ToonVpu
namespace Stream

open Foundation
open Lib

/-! ## One payload -/

/-- What one NAL unit adds to the access unit. -/
def nalAdded (spspps : List UInt8) (need : Bool) (nal : List UInt8) : List UInt8 :=
  if need = true ∧ nalType nal ≠ 5 ∧ nalType nal ≠ 7 ∧ nalType nal ≠ 8 then []
  else pendOf spspps nal ++ (startCode ++ nal)

/-- What one payload adds to the access unit. -/
def added (spspps : List UInt8) (seqGap need : Bool) (payload : List UInt8) : List UInt8 :=
  if 1 ≤ nalType payload ∧ nalType payload ≤ 23 then
    nalAdded spspps need payload
  else if nalType payload = 24 then
    (stapNals payload.length (payload.drop 1)).flatMap (nalAdded spspps need)
  else if nalType payload = 28 ∧ 2 ≤ payload.length then
    if seqGap = true ∨ need = true ∧ fuType payload ≠ 5 then []
    else if fuStart payload then
      pendOf spspps [fuHdr payload] ++ startCode ++ fuHdr payload :: payload.drop 2
    else payload.drop 2
  else []

section Payload

variable {α : Type*} (S : AuStore α) (spspps : List UInt8)

/-- A handler's body up to the label `maybe_flush`; the last component is `false` where it returns
before it. -/
def absorb (s : α) (st : H264RtpState) (seqGap : Bool) (payload : List UInt8) :
    α × H264RtpState × Bool :=
  if 1 ≤ nalType payload ∧ nalType payload ≤ 23 then
    ((h264Nal S spspps (s, st) payload).1, (h264Nal S spspps (s, st) payload).2, true)
  else if nalType payload = 24 then
    (((stapNals payload.length (payload.drop 1)).foldl (h264Nal S spspps) (s, st)).1,
      ((stapNals payload.length (payload.drop 1)).foldl (h264Nal S spspps) (s, st)).2, true)
  else if nalType payload = 28 ∧ 2 ≤ payload.length then
    S.fuA spspps s st seqGap payload
  else (s, st, true)

/-- The flush behind the label `maybe_flush`. -/
def closeUnit (marker : Bool) (x : α × H264RtpState) : α × H264RtpState :=
  if marker then ((S.flush x.1 x.2).1, (S.flush x.1 x.2).2.1) else x

/-- What the handler makes of what was absorbed. -/
def settle (marker : Bool) (r : α × H264RtpState × Bool) : α × H264RtpState :=
  if r.2.2 then closeUnit S marker (r.1, r.2.1) else (r.1, r.2.1)

theorem h264Body_eq (s : α) (st : H264RtpState) (seqGap marker : Bool) (payload : List UInt8) :
    ((h264Body S spspps s st seqGap marker payload).1,
        (h264Body S spspps s st seqGap marker payload).2.1) =
      settle S marker (absorb S spspps s st seqGap payload) := by
  have hflush : ∀ x : α × H264RtpState,
      ((maybeFlush S marker x).1, (maybeFlush S marker x).2.1) = closeUnit S marker x := by
    intro x
    unfold maybeFlush closeUnit
    cases marker <;> rfl
  unfold h264Body absorb settle
  simp only
  split
  · exact hflush _
  split
  · exact hflush _
  split
  · cases hgo : (S.fuA spspps s st seqGap payload).2.2 with
    | true =>
      simp only [if_true]
      exact hflush _
    | false => simp only [Bool.false_eq_true, if_false]
  · exact hflush _

variable {S spspps} {silent : Bool} {V : StoreView α} {s : α} {st : H264RtpState} {b : List UInt8}

theorem h264Nal_grows (law : StoreLaw S spspps silent V) (h : V.Raw s st b) {nal : List UInt8}
    (hne : nal ≠ []) :
    V.Grows s st (nalAdded spspps st.needIdr nal)
      (decide (nalType nal = 5)) (h264Nal S spspps (s, st) nal)
      (V.Raw (h264Nal S spspps (s, st) nal).1 (h264Nal S spspps (s, st) nal).2
        (b ++ nalAdded spspps st.needIdr nal)) := by
  unfold nalAdded h264Nal
  simp only
  by_cases hskip : st.needIdr = true ∧ nalType nal ≠ 5 ∧ nalType nal ≠ 7 ∧ nalType nal ≠ 8
  · rw [if_pos hskip, if_pos hskip, List.append_nil]
    exact .flags (Keeps.refl st) (by simp [hskip.2.1]) rfl (fun _ => id) h
  · rw [if_neg hskip, if_neg hskip]
    generalize hst₁ : (if nalType nal = 5 then { st with auHasIdr := true } else st) = st₁
    generalize hr : (if nalType nal = 5 ∧ 0 < spspps.length then S.appendBytes s st₁ spspps
      else (s, st₁)) = r
    have hpend : V.Grows s st (pendOf spspps nal) (decide (nalType nal = 5)) r
        (V.Raw r.1 r.2 (b ++ pendOf spspps nal)) :=
      .pend h (law.raw_of h rfl rfl)
        (fun _ hm => law.room_of hm (Nat.le_refl _) (Nat.le_refl _) id)
        (fun s st => S.appendBytes s st spspps)
        (fun _ _ hb₁ => law.appendBytes spspps hb₁) hst₁.symm hr.symm
    have hall := hpend.trans fun b' hb' => law.appendNal hb' hne
    rwa [Bool.or_false] at hall

/-- The NAL units that the walk over a STAP-A packet finds are not empty. -/
theorem ne_nil_of_mem_stapNals {fuel : ℕ} {rest nal : List UInt8} (h : nal ∈ stapNals fuel rest) :
    nal ≠ [] := by
  induction fuel generalizing rest with
  | zero => exact absurd h List.not_mem_nil
  | succ fuel ih =>
    rw [stapNals] at h
    split at h
    · exact absurd h List.not_mem_nil
    simp only at h
    split at h
    · exact absurd h List.not_mem_nil
    · rename_i hlen
      rcases List.mem_cons.1 h with rfl | hmem
      · intro hnil
        have hzero := congrArg List.length hnil
        rw [List.length_take, List.length_nil] at hzero
        omega
      · exact ih hmem

/-- The walk over a STAP-A packet adds what its NAL units add. -/
theorem h264Nals_grows (law : StoreLaw S spspps silent V) (h : V.Raw s st b)
    {nals : List (List UInt8)} (hne : ∀ nal ∈ nals, nal ≠ []) :
    V.Grows s st (nals.flatMap (nalAdded spspps st.needIdr))
      (nals.any fun nal => decide (nalType nal = 5)) (nals.foldl (h264Nal S spspps) (s, st))
      (V.Raw (nals.foldl (h264Nal S spspps) (s, st)).1
        (nals.foldl (h264Nal S spspps) (s, st)).2
        (b ++ nals.flatMap (nalAdded spspps st.needIdr))) := by
  induction nals generalizing s st b with
  | nil =>
    exact .flags (Keeps.refl st) (by simp) rfl (fun _ => id) (by simpa using h)
  | cons nal nals ih =>
    have hhead := h264Nal_grows law h (hne nal List.mem_cons_self)
    have hkeeps := hhead.2.1.2
    have hall := hhead.trans fun b' hb' =>
      ih hb' fun x hx => hne x (List.mem_cons_of_mem nal hx)
    rw [hkeeps] at hall
    exact hall

/-- Whatever a payload is, it only ever adds to the unit or marks it bad. -/
theorem absorb_stays (law : StoreLaw S spspps silent V) (h : V.Raw s st b) (seqGap : Bool)
    {payload : List UInt8} (hne : payload ≠ []) :
    V.Stays s st ((absorb S spspps s st seqGap payload).1,
      (absorb S spspps s st seqGap payload).2.1) := by
  unfold absorb
  split
  · exact (h264Nal_grows law h hne).stays
  split
  · exact (h264Nals_grows law h fun _ => ne_nil_of_mem_stapNals).stays
  split
  · exact law.fuStays seqGap payload h
  · exact .flags (Keeps.refl st) id h

end Payload

/-! ## One packet -/

/-- Packets of the unit `a`, of which only the last one may be marked. -/
def wireMarked (a : AccessUnit) (marked : Bool) : List Packet → List WirePacket
  | [] => []
  | p :: ps => ⟨a, p, marked && ps.isEmpty⟩ :: wireMarked a marked ps

theorem wirePackets_eq_wireMarked (a : AccessUnit) (ps : List Packet) :
    wirePackets a ps = wireMarked a true ps := by
  induction ps with
  | nil => rfl
  | cons p ps ih => rw [wirePackets_cons, ih, wireMarked, Bool.true_and]

theorem wireMarked_append (a : AccessUnit) (marked : Bool) (ps qs : List Packet) :
    wireMarked a marked (ps ++ qs) =
      wireMarked a (marked && qs.isEmpty) ps ++ wireMarked a marked qs := by
  induction ps with
  | nil => rfl
  | cons p ps ih =>
    rw [List.cons_append, wireMarked, wireMarked, ih, List.cons_append]
    cases ps <;> simp

/-- A handler of H.264 packets. -/
def h264Handler {α : Type*} (S : AuStore α) (spspps : List UInt8) : Handler α :=
  rtpHandle (h264Body S spspps)

/-- The link after a delivery that left `x`. -/
def Link.after {α : Type*} (l : Link α) (x : α × H264RtpState) : Link α :=
  ⟨x.1, x.2, l.sent + 1, some 0⟩

/-- The link between two packets of the unit `a`, the former of which arrived. -/
structure Inside {α : Type*} (l : Link α) (a : AccessUnit) : Prop where
  seq : l.SeqInv
  lost : l.lost = some 0
  haveTs : l.st.auHaveTs = true
  ts : l.st.auTs = a.ts.toNat

section Packets

variable {α : Type*} {S : AuStore α} {spspps : List UInt8} {silent : Bool} {V : StoreView α}
  {l : Link α} {a : AccessUnit} {p : Packet} {marked : Bool} {b : List UInt8}

theorem send_absorb (hseq : l.SeqInv) (harr : p.arrives = true) (hne : p.payload ≠ []) :
    l.send (h264Handler S spspps) ⟨a, p, marked⟩ =
      l.after (settle S marked (absorb S spspps l.out (l.entered a) l.gap p.payload)) := by
  rw [Link.send_of_arrives (w := ⟨a, p, marked⟩) harr]
  unfold h264Handler
  rw [rtpHandle_encode, if_neg hne, Link.rtpEnter_eq hseq]
  have hbody := h264Body_eq S spspps l.out (l.entered a) l.gap marked p.payload
  simp only [Prod.ext_iff] at hbody
  simp only [Link.after, Link.mk.injEq, and_true]
  exact hbody

theorem entered_head (l : Link α) (a : AccessUnit) :
    (l.entered a).haveSeq = true ∧ (l.entered a).lastSeq = l.sent % 65536 ∧
      (l.entered a).auHaveTs = true ∧ (l.entered a).auTs = a.ts.toNat :=
  Link.rtpNewTs_head _ _ _

/-- A delivery of a packet of `a` that keeps the head of the state leads inside `a`. -/
theorem Inside.of_after {x : α × H264RtpState}
    (hk : SameHead (l.entered a) x.2) : Inside (l.after x) a := by
  obtain ⟨e₁, e₂, e₃, e₄⟩ := entered_head l a
  obtain ⟨h₁, h₂, h₃, h₄⟩ := hk
  refine ⟨⟨h₁.trans e₁, ?_⟩, rfl, h₃.trans e₃, h₄.trans e₄⟩
  intro n hn
  obtain rfl : 0 = n := by simpa [Link.after] using hn
  simp only [Link.after, h₂, e₂]
  omega

theorem Inside.gap (h : Inside l a) : l.gap = false := by
  simp [Link.gap, gapSeen, h.lost]

/-- Inside a unit, the prologue only takes note of the sequence number. -/
theorem Inside.entered (h : Inside l a) :
    l.entered a = { l.st with haveSeq := true, lastSeq := l.sent % 65536 } := by
  rcases l.entered_cases a with ⟨-, -, heq⟩ | ⟨-, hts, -⟩ | ⟨hnew, -⟩
  · rw [heq]
    simp [Link.checked, h.gap]
  · exact absurd h.ts hts
  · rcases hnew with hclosed | ⟨hts, -⟩
    · exact absurd (hclosed.symm.trans h.haveTs) Bool.false_ne_true
    · exact absurd h.ts hts

theorem Inside.raw (law : StoreLaw S spspps silent V) (h : Inside l a) {b : List UInt8}
    (hraw : V.Raw l.out l.st b) : V.Raw l.out (l.entered a) b := by
  rw [h.entered]
  exact law.raw_of hraw rfl rfl

/-- A packet in the middle of a unit. -/
theorem send_stays (law : StoreLaw S spspps silent V) (hseq : l.SeqInv)
    (hraw : V.Raw l.out (l.entered a) b) (harr : p.arrives = true) (hne : p.payload ≠ []) :
    ∃ l', l.send (h264Handler S spspps) ⟨a, p, false⟩ = l' ∧ Inside l' a ∧
      V.Stays l.out (l.entered a) (l'.out, l'.st) := by
  have hstays := absorb_stays law hraw l.gap hne
  have hsettle : settle S false (absorb S spspps l.out (l.entered a) l.gap p.payload) =
      ((absorb S spspps l.out (l.entered a) l.gap p.payload).1,
        (absorb S spspps l.out (l.entered a) l.gap p.payload).2.1) := by
    unfold settle closeUnit
    simp
  rw [send_absorb hseq harr hne, hsettle]
  exact ⟨_, rfl, .of_after hstays.2.1.1, hstays⟩

end Packets

/-! ## Between access units -/

/-- The link at the end of an access unit, of which any packets may be lost.  What is left over of
an earlier unit is empty or bad, unless the next delivery will show a gap. -/
structure Boundary {α : Type*} (V : StoreView α) (l : Link α) : Prop where
  seq : l.SeqInv
  raw : ∃ b, V.Raw l.out l.st b ∧ (l.lost = some 0 → b = [] ∨ l.st.auBad = true)
  haveTs : l.st.auHaveTs = l.lost.isSome
  fresh : l.lost = none → l.st.auLen = 0 ∧ l.st.auBad = false ∧ l.st.auHasIdr = false ∧
    l.st.fuActive = false ∧ l.st.needIdr = false

/-- The receiver waits for an IDR slice, or will from the next delivery on. -/
def Waits {α : Type*} (l : Link α) : Prop := l.st.needIdr = true ∨ ∃ n, l.lost = some (n + 1)

/-- A unit of which nothing will be emitted: it is bad, or the next delivery will make it so. -/
structure Broken {α : Type*} (V : StoreView α) (l : Link α) (a : AccessUnit) : Prop where
  seq : l.SeqInv
  raw : ∃ b, V.Raw l.out l.st b
  haveTs : l.st.auHaveTs = true
  ts : l.st.auTs = a.ts.toNat
  bad : l.st.auBad = true ∨ ∃ n, l.lost = some (n + 1)
  delivered : l.lost ≠ none

/-- No stale IDR flag is left behind at the end of a unit whose last packet arrived. -/
def FlagClean {α : Type*} (l : Link α) : Prop :=
  l.lost = some 0 → l.st.auHasIdr = false ∨ l.st.auBad = true

section Bad

variable {α : Type*} {S : AuStore α} {spspps : List UInt8} {silent : Bool} {V : StoreView α}
  {l : Link α} {a : AccessUnit} {p : Packet} {marked : Bool} {b : List UInt8}

theorem Broken.boundary (h : Broken V l a) : Boundary V l := by
  obtain ⟨b, hraw⟩ := h.raw
  obtain ⟨n, hlost⟩ := Option.ne_none_iff_exists'.1 h.delivered
  refine ⟨h.seq, ⟨b, hraw, ?_⟩, by rw [h.haveTs, hlost]; rfl, fun hnone => absurd hnone h.delivered⟩
  intro hzero
  rcases h.bad with hbad | ⟨m, hm⟩
  · exact .inr hbad
  · rw [hzero] at hm
    simp at hm

theorem flushed_auBad {st : H264RtpState} (hbad : st.auBad = true) :
    (flushed st).needIdr = st.needIdr := by
  simp [flushed, rtpAuReset, hbad]

/-- The end of a unit: a flush empties it. -/
theorem Boundary.of_flush (law : StoreLaw S spspps silent V) {l : Link α} (hin : Inside l a)
    (hraw : V.Raw l.out l.st b) :
    Boundary V { l with out := (S.flush l.out l.st).1, st := (S.flush l.out l.st).2.1 } := by
  obtain ⟨hst, hnil, -⟩ := law.flush hraw
  have hseq : Link.SeqInv { l with out := (S.flush l.out l.st).1, st := flushed l.st } :=
    ⟨hin.seq.haveSeq, hin.seq.lastSeq⟩
  rw [hst]
  refine ⟨hseq, ⟨[], hnil, fun _ => .inl rfl⟩, ?_, ?_⟩
  · rw [hin.lost]
    exact hin.haveTs
  · intro hnone
    simp [hin.lost] at hnone

/-- A delivery that leaves the unit bad. -/
theorem bad_settle (law : StoreLaw S spspps silent V) (marked : Bool)
    {r : α × H264RtpState × Bool} (hem : V.emitted r.1 = V.emitted l.out)
    (hk : Keeps (l.entered a) r.2.1) (hbad : r.2.1.auBad = true) (hraw : V.Raw r.1 r.2.1 b) :
    ∃ l', l.after (settle S marked r) = l' ∧
      V.emitted l'.out = V.emitted l.out ∧ l'.st.needIdr = (l.entered a).needIdr ∧
      l'.lost = some 0 ∧ (marked = false → Broken V l' a) ∧
      (marked = true → Boundary V l' ∧ FlagClean l') := by
  have hin : Inside (l.after (r.1, r.2.1)) a := .of_after hk.1
  have hbroken : Broken V (l.after (r.1, r.2.1)) a :=
    ⟨hin.seq, ⟨b, hraw⟩, hin.haveTs, hin.ts, .inl hbad, by simp [Link.after]⟩
  unfold settle closeUnit
  by_cases hflush : r.2.2 = true ∧ marked = true
  · obtain ⟨hst, hnil, hemit⟩ := law.flush hraw
    rw [if_pos hflush.1, if_pos hflush.2]
    refine ⟨_, rfl, ?_, ?_, rfl, fun hm => ?_, fun _ => ⟨.of_flush law hin hraw, ?_⟩⟩
    · have hnone : ¬ (b ≠ [] ∧ r.2.1.auBad = false) := by simp [hbad]
      simp only [if_neg hnone, List.append_nil] at hemit
      exact hemit.trans hem
    · show (S.flush r.1 r.2.1).2.1.needIdr = _
      rw [hst, flushed_auBad hbad]
      exact hk.2
    · exact absurd (hm.symm.trans hflush.2) Bool.false_ne_true
    · intro _
      refine .inl ?_
      show (S.flush r.1 r.2.1).2.1.auHasIdr = _
      rw [hst]
      rfl
  · have hkeep : (if r.2.2 = true then
        if marked = true then ((S.flush r.1 r.2.1).1, (S.flush r.1 r.2.1).2.1) else (r.1, r.2.1)
        else (r.1, r.2.1)) = (r.1, r.2.1) := by
      by_cases hgo : r.2.2 = true
      · rw [if_pos hgo, if_neg fun hm => hflush ⟨hgo, hm⟩]
      · rw [if_neg hgo]
    rw [hkeep]
    exact ⟨_, rfl, hem, hk.2, rfl, fun _ => hbroken,
      fun _ => ⟨hbroken.boundary, fun _ => .inr hbad⟩⟩

/-- The prologue on a broken unit. -/
theorem Broken.entered (law : StoreLaw S spspps silent V) (h : Broken V l a)
    {ws : List WirePacket} (hvis : GapsVisible l.lost (⟨a, p, marked⟩ :: ws))
    (harr : p.arrives = true) :
    (∃ b, V.Raw l.out (l.entered a) b) ∧ (l.entered a).auBad = true ∧
      (Waits l → (l.entered a).needIdr = true) := by
  obtain ⟨b, hraw⟩ := h.raw
  have hsame : l.entered a = { l.checked with auBad := l.st.auBad || l.gap } := by
    rcases l.entered_cases a with ⟨-, -, heq⟩ | ⟨-, hts, -⟩ | ⟨hnew, -⟩
    · exact heq
    · exact absurd h.ts hts
    · rcases hnew with hclosed | ⟨hts, -⟩
      · exact absurd (hclosed.symm.trans h.haveTs) Bool.false_ne_true
      · exact absurd h.ts hts
  have hgap : ∀ n, l.lost = some (n + 1) → l.gap = true := fun n hn =>
    Link.gap_of_lost hn hvis harr
  rw [hsame]
  refine ⟨⟨b, law.raw_of hraw rfl rfl⟩, ?_, ?_⟩
  · rcases h.bad with hbad | ⟨n, hn⟩
    · simp [hbad]
    · simp [hgap n hn]
  · rintro (hneed | ⟨n, hn⟩)
    · simp [Link.checked, hneed]
    · simp [Link.checked, hgap n hn]

/-- Nothing more of a broken unit is emitted. -/
theorem Broken.run (law : StoreLaw S spspps silent V) (ps : List Packet)
    (hne : ∀ p ∈ ps, p.payload ≠ []) :
    ∀ {l : Link α}, Broken V l a → GapsVisible l.lost (wireMarked a true ps) →
      ∃ l', l.run (h264Handler S spspps) (wireMarked a true ps) = l' ∧
        V.emitted l'.out = V.emitted l.out ∧ Boundary V l' ∧ l'.lost ≠ none ∧
        (ps ≠ [] → FlagClean l') ∧ (Waits l → Waits l') := by
  -- By induction on what is left of the unit, whose last packet closes it.
  induction ps with
  | nil =>
    intro l h _
    exact ⟨l, rfl, rfl, h.boundary, h.delivered, fun hps => absurd rfl hps, id⟩
  | cons p ps ih =>
    intro l h hvis
    have hrest : ∀ q ∈ ps, q.payload ≠ [] := fun q hq => hne q (List.mem_cons_of_mem p hq)
    rw [wireMarked, Bool.true_and] at hvis ⊢
    rw [Link.run_cons]
    have hvis' : GapsVisible
        (l.send (h264Handler S spspps) ⟨a, p, ps.isEmpty⟩).lost (wireMarked a true ps) := by
      rw [Link.send_lost_eq]
      exact hvis.2
    by_cases harr : p.arrives = true
    · have hpay := hne p List.mem_cons_self
      obtain ⟨⟨b, hraw⟩, hbad, hwait⟩ := h.entered law hvis harr
      obtain ⟨hem₁, hk₁, hstay, b', hb'⟩ := absorb_stays law hraw l.gap hpay
      obtain ⟨l', heq, hem, hneed, hlost, hmid, hend⟩ :=
        bad_settle law ps.isEmpty hem₁ hk₁ (hstay hbad) hb'
      rw [send_absorb h.seq harr hpay, heq] at hvis' ⊢
      have hwait' : Waits l → Waits l' := fun hw => .inl (hneed.trans (hwait hw))
      cases hps : ps.isEmpty with
      | true =>
        obtain rfl : ps = [] := List.isEmpty_iff.1 hps
        obtain ⟨hbd, hclean⟩ := hend rfl
        exact ⟨l', rfl, hem, hbd, by simp [hlost], fun _ => hclean, hwait'⟩
      | false =>
        obtain ⟨l'', heq', hem', hbd, hsome, hclean, hw⟩ := ih hrest (hmid hps) hvis'
        have hps' : ps ≠ [] := by simpa [List.isEmpty_iff] using hps
        exact ⟨l'', heq', hem'.trans hem, hbd, hsome, fun _ => hclean hps',
          fun hw₀ => hw (hwait' hw₀)⟩
    · -- Another loss leaves the unit broken.
      have hgone : p.arrives = false := by simpa using harr
      have heq : l.send (h264Handler S spspps) ⟨a, p, ps.isEmpty⟩ =
          { l with sent := l.sent + 1, lost := l.lost.map (· + 1) } := Link.send_of_lost hgone
      rw [heq] at hvis' ⊢
      obtain ⟨n, hlost⟩ := Option.ne_none_iff_exists'.1 h.delivered
      have hbroken : Broken V { l with sent := l.sent + 1, lost := l.lost.map (· + 1) } a :=
        ⟨h.seq.lose, h.raw, h.haveTs, h.ts, .inr ⟨n, by simp [hlost]⟩, by simp [hlost]⟩
      obtain ⟨l'', heq', hem', hbd, hsome, hclean, hw⟩ := ih hrest hbroken hvis'
      refine ⟨l'', heq', hem', hbd, hsome, fun _ => ?_, fun _ => hw (.inr ⟨n, by simp [hlost]⟩)⟩
      by_cases hps : ps = []
      · intro hzero
        rw [← heq', hps] at hzero
        simp [wireMarked, hlost] at hzero
      · exact hclean hps

/-- A delivery that leaves the unit bad, and then the rest of the unit. -/
theorem bad_finish (law : StoreLaw S spspps silent V) (hseq : l.SeqInv) {rest : List Packet}
    (harr : p.arrives = true) (hne : ∀ q ∈ p :: rest, q.payload ≠ [])
    {r : α × H264RtpState × Bool}
    (hr : absorb S spspps l.out (l.entered a) l.gap p.payload = r)
    (hem : V.emitted r.1 = V.emitted l.out) (hk : Keeps (l.entered a) r.2.1)
    (hbad : r.2.1.auBad = true) (hraw : V.Raw r.1 r.2.1 b)
    (hvis : GapsVisible (some 0) (wireMarked a true rest)) :
    ∃ l', l.run (h264Handler S spspps) (wireMarked a true (p :: rest)) = l' ∧
      V.emitted l'.out = V.emitted l.out ∧ Boundary V l' ∧ l'.lost ≠ none ∧ FlagClean l' ∧
      ((l.entered a).needIdr = true → Waits l') := by
  obtain ⟨l', heq, hem', hneed, hlost, hmid, hend⟩ := bad_settle law rest.isEmpty hem hk hbad hraw
  rw [wireMarked, Link.run_cons, Bool.true_and,
    send_absorb hseq harr (hne p List.mem_cons_self), hr, heq]
  cases hrest : rest.isEmpty with
  | true =>
    obtain rfl : rest = [] := List.isEmpty_iff.1 hrest
    obtain ⟨hbd, hclean⟩ := hend rfl
    exact ⟨l', rfl, hem', hbd, by simp [hlost], hclean, fun hw => .inl (hneed.trans hw)⟩
  | false =>
    have hrest' : rest ≠ [] := by simpa [List.isEmpty_iff] using hrest
    obtain ⟨l'', heq', hem'', hbd, hsome, hclean, hw⟩ :=
      (hmid hrest).run law rest (fun q hq => hne q (List.mem_cons_of_mem p hq)) (by rwa [hlost])
    exact ⟨l'', heq', hem''.trans hem', hbd, hsome, hclean hrest',
      fun hneed' => hw (.inl (hneed.trans hneed'))⟩

end Bad

end Stream
end ToonVpu
