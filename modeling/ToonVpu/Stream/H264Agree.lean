import ToonVpu.Stream.H264Cut
import ToonVpu.Stream.H264Lossless

/-!
# H264Agree — do the two H.264 handlers emit the same?

The handlers are run side by side on the packets of one sender, of which any may be lost.  One
joins fragments in a buffer of its own, the other one in the ring, so their access units differ
while a NAL unit is in progress, and once a unit is bad they differ for good.  `TwinAfter` says how
the two are related between packets.  They part in three places: on a fragment whose first one is
missing, which only one of them takes as damage; at a new timestamp, when one of them has bytes to
discard and the other one does not; and when a loss does not show in the sequence numbers.
-/

namespace ToonVpu
namespace Stream

open Foundation
open Lib

/-! ## Where the handlers part -/

section Condition

variable {α β : Type*}

/-- The next packet is a fragment that is not passed over, and no fragmented NAL unit is in
progress. -/
def Orphan (l : Link α) (w : WirePacket) : Prop :=
  l.gap = false ∧ w.Continues ∧ (l.entered w.unit).fuActive = false ∧
    ¬ ((l.entered w.unit).needIdr = true ∧ fuType w.packet.payload ≠ 5)

/-- Packets were lost since the last delivery, and the next sequence number does not show it. -/
def HiddenLoss (l : Link α) : Prop := l.gap = false ∧ l.lost ≠ none ∧ l.lost ≠ some 0

/-- A mark on a unit without bytes, which a new timestamp does not take away. -/
def KeptMarks (st : H264RtpState) : Bool × Bool :=
  (st.auBad && decide (st.auLen = 0), st.auHasIdr && decide (st.auLen = 0))

/-- The handlers stay together on the next packet: no fragment without its first one finds a unit
that is not bad yet; at a new timestamp both keep the same marks; and a hidden loss finds no
fragment in progress, and both units bad or none. -/
structure StaysTogether (l : Link α) (l' : Link β) (w : WirePacket) : Prop where
  orphan : Orphan l w → (l.entered w.unit).auBad = true
  marks : l.st.auHaveTs = true → l.st.auTs ≠ w.unit.ts.toNat → KeptMarks l.st = KeptMarks l'.st
  hidden : HiddenLoss l → l.st.fuActive = false ∧ l'.st.auBad = l.st.auBad

/-- The handlers stay together on every packet that arrives. -/
def StayTogether (handle : Handler α) (handle' : Handler β) :
    Link α → Link β → List WirePacket → Prop
  | _, _, [] => True
  | l, l', w :: ws =>
    (w.packet.arrives = true → StaysTogether l l' w) ∧
      StayTogether handle handle' (l.send handle w) (l'.send handle' w) ws

instance (l : Link α) (w : WirePacket) : Decidable (Orphan l w) :=
  inferInstanceAs (Decidable (_ ∧ _ ∧ _ ∧ _))

instance (l : Link α) : Decidable (HiddenLoss l) := inferInstanceAs (Decidable (_ ∧ _ ∧ _))

instance (l : Link α) (l' : Link β) (w : WirePacket) : Decidable (StaysTogether l l' w) :=
  decidable_of_iff
    ((Orphan l w → (l.entered w.unit).auBad = true) ∧
      (l.st.auHaveTs = true → l.st.auTs ≠ w.unit.ts.toNat → KeptMarks l.st = KeptMarks l'.st) ∧
      (HiddenLoss l → l.st.fuActive = false ∧ l'.st.auBad = l.st.auBad))
    ⟨fun h => ⟨h.1, h.2.1, h.2.2⟩, fun h => ⟨h.orphan, h.marks, h.hidden⟩⟩

instance decidableStayTogether (handle : Handler α) (handle' : Handler β) :
    ∀ (l : Link α) (l' : Link β) (ws : List WirePacket),
      Decidable (StayTogether handle handle' l l' ws)
  | _, _, [] => .isTrue trivial
  | l, l', w :: ws =>
    have := decidableStayTogether handle handle' (l.send handle w) (l'.send handle' w) ws
    inferInstanceAs (Decidable ((w.packet.arrives = true → StaysTogether l l' w) ∧
      StayTogether handle handle' (l.send handle w) (l'.send handle' w) ws))

end Condition

/-! ## Two units that are the same -/

/-- Both units are bad, or none is and they have the same bytes. -/
def SameUnit (st st' : H264RtpState) (b b' : List UInt8) : Prop :=
  (st.auBad = true ∧ st'.auBad = true) ∨
    (st.auBad = false ∧ st'.auBad = false ∧ st'.auHasIdr = st.auHasIdr ∧ b' = b)

/-- What the handlers have in common at any time. -/
structure Twin {α β : Type*} (V : StoreView α) (W : StoreView β) (x : α × H264RtpState)
    (y : β × H264RtpState) : Prop where
  emitted : W.emitted y.1 = V.emitted x.1
  need : y.2.needIdr = x.2.needIdr
  waits : x.2.auBad = true → x.2.needIdr = true

/-- No fragment is in progress. -/
def TwinIdle {α β : Type*} (V : StoreView α) (W : StoreView β) (x : α × H264RtpState)
    (y : β × H264RtpState) : Prop :=
  ∃ b b', V.Raw x.1 x.2 b ∧ W.Raw y.1 y.2 b' ∧ SameUnit x.2 y.2 b b' ∧
    x.2.fuActive = false ∧ y.2.fuActive = false

/-- The same part `q` of a fragmented NAL unit is there. -/
def TwinBusy {α β : Type*} (V : StoreView α) (W : StoreView β) (x : α × H264RtpState)
    (y : β × H264RtpState) (q : List UInt8) : Prop :=
  ∃ b b', V.Part x.1 x.2 b q ∧ W.Part y.1 y.2 b' q ∧ SameUnit x.2 y.2 b b'

/-- A store whose appends leave the fragment in progress alone, and whose last fragments end it. -/
structure ActiveLaw {α : Type*} (S : AuStore α) (spspps : List UInt8) (V : StoreView α) :
    Prop where
  part : ∀ {s st b q}, V.Part s st b q → st.fuActive = true
  appendBytes : ∀ s st p, (S.appendBytes s st p).2.fuActive = st.fuActive
  appendNal : ∀ s st nal, (S.appendNal s st nal).2.fuActive = st.fuActive
  fuLast : ∀ {s st payload}, ¬ (st.needIdr = true ∧ fuType payload ≠ 5) →
    st.fuActive = true → fuStart payload = false → fuEnd payload = true →
      (S.fuA spspps s st false payload).2.1.fuActive = false

section Active

theorem rtpDirectAppend_fuActive (d : Decoder) (st : H264RtpState) (p : List UInt8) :
    (rtpDirectAppend d st p).2.1.fuActive = st.fuActive := by
  unfold rtpDirectAppend
  split
  · rfl
  simp only
  split
  · rfl
  split <;> rfl

theorem rtpDirectAppendNal_fuActive (d : Decoder) (st : H264RtpState) (nal : List UInt8) :
    (rtpDirectAppendNal d st nal).2.1.fuActive = st.fuActive := by
  have hcode := rtpDirectAppend_fuActive d st startCode
  unfold rtpDirectAppendNal
  generalize rtpDirectAppend d st startCode = r at hcode
  obtain ⟨d', st', ok⟩ := r
  cases ok with
  | true => exact (rtpDirectAppend_fuActive d' st' nal).trans hcode
  | false => exact hcode

theorem directActive (bs : BitstreamMem) (spspps : List UInt8) :
    ActiveLaw directStore spspps (directView bs spspps) where
  part h := h.2
  appendBytes d st p := rtpDirectAppend_fuActive d st p
  appendNal d st nal := rtpDirectAppendNal_fuActive d st nal
  fuLast := by
    intro d st payload hgo hact hstart hend
    have hresult : directStore.fuA spspps d st false payload = _ := fuADirect_of_go spspps hgo
    rw [hresult, hstart]
    simp only [Bool.false_eq_true, if_false]
    rw [fuJoinDirect, if_neg (by simp [hact])]
    simp only [hend, if_true]

theorem bufferedActive (spspps : List UInt8) :
    ActiveLaw bufferedStore spspps (bufferedView spspps) where
  part h := h.2.1
  appendBytes out st p := by
    show (rtpAuAppendBytes st p).fuActive = st.fuActive
    unfold rtpAuAppendBytes
    split
    · rfl
    split <;> rfl
  appendNal out st nal := by
    show (rtpAuAppend st nal).fuActive = st.fuActive
    unfold rtpAuAppend
    split <;> rfl
  fuLast := by
    intro out st payload hgo hact hstart hend
    have hresult : bufferedStore.fuA spspps out st false payload = _ := fuABuffered_of_go hgo
    rw [hresult, hstart]
    simp only [Bool.false_eq_true, if_false]
    unfold fuJoinBuffered
    split
    · rfl
    · rfl

variable {α : Type*} {S : AuStore α} {spspps : List UInt8} {V : StoreView α}

theorem h264Nal_fuActive (act : ActiveLaw S spspps V) (x : α × H264RtpState) (nal : List UInt8) :
    (h264Nal S spspps x nal).2.fuActive = x.2.fuActive := by
  obtain ⟨s, st⟩ := x
  unfold h264Nal
  simp only
  split
  · rfl
  refine (act.appendNal _ _ _).trans ?_
  split
  · refine (act.appendBytes _ _ _).trans ?_
    split <;> rfl
  · split <;> rfl

theorem h264Nals_fuActive (act : ActiveLaw S spspps V) (nals : List (List UInt8))
    (x : α × H264RtpState) :
    (nals.foldl (h264Nal S spspps) x).2.fuActive = x.2.fuActive := by
  induction nals generalizing x with
  | nil => rfl
  | cons nal nals ih => exact (ih _).trans (h264Nal_fuActive act x nal)

end Active

/-! ## One payload for both -/

section Payload

variable {α β : Type*} {S : AuStore α} {T : AuStore β} {spspps : List UInt8} {V : StoreView α}
  {W : StoreView β} {x r : α × H264RtpState} {y r' : β × H264RtpState} {payload : List UInt8}

/-- The same bytes are added to both, and there is room for them. -/
theorem Twin.grows (h : Twin V W x y) {p : List UInt8} {i : Bool} {D D' : Prop}
    (hx : V.Grows x.1 x.2 p i r D) (hy : W.Grows y.1 y.2 p i r' D')
    (hroom : V.Room x.1 x.2 p.length) (hroom' : W.Room y.1 y.2 p.length) :
    Twin V W r r' ∧ D ∧ D' ∧ ∀ b b' c c', (b' = b → c' = c) → SameUnit x.2 y.2 b b' →
      SameUnit r.2 r'.2 c c' := by
  obtain ⟨hem, hk, hidr, ⟨hbad, hdone, -⟩ | ⟨-, -, hfull⟩⟩ := hx
  · obtain ⟨hem', hk', hidr', ⟨hbad', hdone', -⟩ | ⟨-, -, hfull'⟩⟩ := hy
    · refine ⟨⟨?_, ?_, ?_⟩, hdone, hdone', ?_⟩
      · rw [hem', hem]
        exact h.emitted
      · rw [hk'.2, hk.2]
        exact h.need
      · rw [hbad, hk.2]
        exact h.waits
      · intro b b' c c' hbytes hsame
        unfold SameUnit at hsame ⊢
        rw [hbad, hbad', hidr, hidr']
        rcases hsame with hboth | ⟨h₁, h₂, h₃, h₄⟩
        · exact .inl hboth
        · exact .inr ⟨h₁, h₂, by rw [h₃], hbytes h₄⟩
    · exact absurd hroom' (hfull' 0)
  · exact absurd hroom (hfull 0)

/-- What becomes of both units when the same payload is absorbed.  A NAL unit in progress is `len`
bytes long then; `first` tells whether the payload was its first fragment. -/
inductive TwinAbsorbed (V : StoreView α) (W : StoreView β) (payload : List UInt8) (first : Bool)
    (len : ℕ) (r : α × H264RtpState × Bool) (r' : β × H264RtpState × Bool) : Prop
  | idle (hgo : r.2.2 = true) (hgo' : r'.2.2 = true)
      (htwin : Twin V W (r.1, r.2.1) (r'.1, r'.2.1))
      (hidle : TwinIdle V W (r.1, r.2.1) (r'.1, r'.2.1))
  | busy (q : List UInt8) (hgo : r.2.2 = true) (hgo' : r'.2.2 = true)
      (htwin : Twin V W (r.1, r.2.1) (r'.1, r'.2.1))
      (hbusy : TwinBusy V W (r.1, r.2.1) (r'.1, r'.2.1) q) (hne : q ≠ []) (hlen : q.length = len)
      (hfirst : fuStart payload = first)
      (hopen : nalType payload = 28 ∧ 2 ≤ payload.length ∧ fuEnd payload = false)
      (hpass : ¬ (r.2.1.needIdr = true ∧ fuType payload ≠ 5))
  /-- The first handler returns at once; both units are bad. -/
  | dropped (hgo : r.2.2 = false) (hgo' : r'.2.2 = true)
      (htwin : Twin V W (r.1, r.2.1) (r'.1, r'.2.1))
      (hidle : TwinIdle V W (r.1, r.2.1) (r'.1, r'.2.1)) (hbad : r.2.1.auBad = true)

/-- Whole NAL units, in a packet of their own or together. -/
theorem TwinIdle.grows (h : Twin V W x y) {p b b' : List UInt8} {i : Bool}
    (hx : V.Grows x.1 x.2 p i r (V.Raw r.1 r.2 (b ++ p)))
    (hy : W.Grows y.1 y.2 p i r' (W.Raw r'.1 r'.2 (b' ++ p)))
    (hroom : V.Room x.1 x.2 p.length) (hroom' : W.Room y.1 y.2 p.length)
    (hsame : SameUnit x.2 y.2 b b') (hact : r.2.fuActive = false) (hact' : r'.2.fuActive = false) :
    Twin V W r r' ∧ TwinIdle V W r r' := by
  obtain ⟨htwin, hraw, hraw', hunit⟩ := h.grows hx hy hroom hroom'
  exact ⟨htwin, b ++ p, b' ++ p, hraw, hraw',
    hunit b b' _ _ (fun hb => by rw [hb]) hsame, hact, hact'⟩

/-- A payload that finds no fragment in progress. -/
theorem absorb_idle (law : StoreLaw S spspps true V) (law' : StoreLaw T spspps false W)
    (act : ActiveLaw S spspps V) (act' : ActiveLaw T spspps W) (h : Twin V W x y)
    (hidle : TwinIdle V W x y) (seqGap : Bool) (hne : payload ≠ [])
    (hstart : nalType payload = 28 → fuStart payload = true →
      fuEnd payload = false ∧ V.Fits (1 + (payload.drop 2).length) ∧
        W.Fits (1 + (payload.drop 2).length))
    (horphan : seqGap = false → nalType payload = 28 → 2 ≤ payload.length →
      fuStart payload = false → ¬ (x.2.needIdr = true ∧ fuType payload ≠ 5) → x.2.auBad = true)
    (hroom : V.Room x.1 x.2 (added spspps seqGap x.2.needIdr payload).length)
    (hroom' : W.Room y.1 y.2 (added spspps seqGap y.2.needIdr payload).length) :
    TwinAbsorbed V W payload true (1 + (payload.drop 2).length)
      (absorb S spspps x.1 x.2 seqGap payload) (absorb T spspps y.1 y.2 seqGap payload) := by
  obtain ⟨b, b', hraw, hraw', hsame, hact, hact'⟩ := hidle
  rw [h.need] at hroom'
  unfold absorb
  by_cases hone : 1 ≤ nalType payload ∧ nalType payload ≤ 23
  · rw [added, if_pos hone] at hroom hroom'
    rw [if_pos hone, if_pos hone]
    have hx := h264Nal_grows law hraw hne
    have hy := h264Nal_grows law' hraw' hne
    rw [h.need] at hy
    obtain ⟨htwin, hidle⟩ := TwinIdle.grows h hx hy hroom hroom' hsame
      ((h264Nal_fuActive act _ _).trans hact) ((h264Nal_fuActive act' _ _).trans hact')
    exact .idle rfl rfl htwin hidle
  by_cases hstap : nalType payload = 24
  · rw [added, if_neg hone, if_pos hstap] at hroom hroom'
    rw [if_neg hone, if_pos hstap, if_neg hone, if_pos hstap]
    have hnals : ∀ nal ∈ stapNals payload.length (payload.drop 1), nal ≠ [] := fun _ =>
      ne_nil_of_mem_stapNals
    have hx := h264Nals_grows law hraw hnals
    have hy := h264Nals_grows law' hraw' hnals
    rw [h.need] at hy
    obtain ⟨htwin, hidle⟩ := TwinIdle.grows h hx hy hroom hroom' hsame
      ((h264Nals_fuActive act _ _).trans hact) ((h264Nals_fuActive act' _ _).trans hact')
    exact .idle rfl rfl htwin hidle
  have hnothing : TwinIdle V W x y := ⟨b, b', hraw, hraw', hsame, hact, hact'⟩
  by_cases hfu : nalType payload = 28 ∧ 2 ≤ payload.length
  · rw [added_fuA hfu.1 hfu.2] at hroom hroom'
    rw [if_neg hone, if_neg hstap, if_pos hfu, if_neg hone, if_neg hstap, if_pos hfu]
    by_cases hskip : seqGap = true ∨ x.2.needIdr = true ∧ fuType payload ≠ 5
    · -- Both pass over the fragment.
      have hskip' : seqGap = true ∨ y.2.needIdr = true ∧ fuType payload ≠ 5 := by rwa [h.need]
      rw [law.fuSkip hskip, law'.fuSkip hskip']
      exact .idle rfl rfl h hnothing
    rw [if_neg hskip] at hroom hroom'
    rw [not_or, Bool.not_eq_true] at hskip
    obtain ⟨hgap, hgo⟩ := hskip
    have hgo' : ¬ (y.2.needIdr = true ∧ fuType payload ≠ 5) := by rwa [h.need]
    rw [hgap]
    cases hfirst : fuStart payload with
    | true =>
      obtain ⟨hend, hfits, hfits'⟩ := hstart hfu.1 hfirst
      rw [if_pos hfirst] at hroom hroom'
      obtain ⟨hon, hx⟩ := law.fuFirst hraw hgo hfirst hend hfits
      obtain ⟨hon', hy⟩ := law'.fuFirst hraw' hgo' hfirst hend hfits'
      obtain ⟨htwin, hpart, hpart', hunit⟩ := h.grows hx hy hroom hroom'
      refine .busy (fuHdr payload :: payload.drop 2) hon hon' htwin
        ⟨b, b', hpart, hpart', hunit b b' b b' id hsame⟩ (List.cons_ne_nil _ _)
        (by rw [List.length_cons]; omega) hfirst ⟨hfu.1, hfu.2, hend⟩ ?_
      rw [hx.2.1.2]
      exact hgo
    | false =>
      -- Only one of them takes this as damage, but the unit is bad already.
      have hbad := horphan hgap hfu.1 hfu.2 hfirst hgo
      have hbad' : y.2.auBad = true := by
        rcases hsame with hboth | hclean
        · exact hboth.2
        · exact absurd (hbad.symm.trans hclean.1) (by simp)
      have heq : ({ y.2 with auBad := true } : H264RtpState) = y.2 := by rw [← hbad']
      rw [law.fuOrphan hgo hact hfirst, law'.fuOrphan hgo' hact' hfirst]
      simp only [if_true, Bool.false_eq_true, if_false, heq]
      exact .dropped rfl rfl h hnothing hbad
  · rw [if_neg hone, if_neg hstap, if_neg hfu, if_neg hone, if_neg hstap, if_neg hfu]
    exact .idle rfl rfl h hnothing

/-- The next fragment of the NAL unit in progress. -/
theorem absorb_busy (law : StoreLaw S spspps true V) (law' : StoreLaw T spspps false W)
    (act : ActiveLaw S spspps V) (act' : ActiveLaw T spspps W)
    (h : Twin V W x y) {q : List UInt8} (hbusy : TwinBusy V W x y q) (hq : q ≠ [])
    (hcont : nalType payload = 28 ∧ 2 ≤ payload.length ∧ fuStart payload = false)
    (hgo : ¬ (x.2.needIdr = true ∧ fuType payload ≠ 5))
    (hfits : V.Fits (q.length + (payload.drop 2).length))
    (hfits' : W.Fits (q.length + (payload.drop 2).length))
    (hroom : V.Room x.1 x.2 (added spspps false x.2.needIdr payload).length)
    (hroom' : W.Room y.1 y.2 (added spspps false y.2.needIdr payload).length) :
    TwinAbsorbed V W payload false (q.length + (payload.drop 2).length)
      (absorb S spspps x.1 x.2 false payload) (absorb T spspps y.1 y.2 false payload) := by
  obtain ⟨b, b', hpart, hpart', hsame⟩ := hbusy
  obtain ⟨htype, hlen, hnext⟩ := hcont
  have hgo' : ¬ (y.2.needIdr = true ∧ fuType payload ≠ 5) := by rwa [h.need]
  have hadded : added spspps false x.2.needIdr payload = payload.drop 2 := by
    rw [added_fuA htype hlen, if_neg (by simpa using hgo), if_neg (by simp [hnext])]
  rw [h.need, hadded] at hroom'
  rw [hadded] at hroom
  have hone : ¬ (1 ≤ nalType payload ∧ nalType payload ≤ 23) := by omega
  have hstap : ¬ nalType payload = 24 := by omega
  unfold absorb
  rw [if_neg hone, if_neg hstap, if_pos ⟨htype, hlen⟩, if_neg hone, if_neg hstap,
    if_pos ⟨htype, hlen⟩]
  cases hend : fuEnd payload with
  | false =>
    obtain ⟨hon, hx⟩ := law.fuNext hpart hgo hnext hend hfits hq
    obtain ⟨hon', hy⟩ := law'.fuNext hpart' hgo' hnext hend hfits' hq
    obtain ⟨htwin, hp, hp', hunit⟩ := h.grows hx hy hroom hroom'
    refine .busy (q ++ payload.drop 2) hon hon' htwin
      ⟨b, b', hp, hp', hunit b b' b b' id hsame⟩ (by simp [hq]) (by simp) hnext ⟨htype, hlen, hend⟩ ?_
    rw [hx.2.1.2]
    exact hgo
  | true =>
    obtain ⟨hon, hx⟩ := law.fuLast hpart hgo hnext hend hfits hq
    obtain ⟨hon', hy⟩ := law'.fuLast hpart' hgo' hnext hend hfits' hq
    obtain ⟨htwin, hp, hp', hunit⟩ := h.grows hx hy hroom hroom'
    exact .idle hon hon' htwin ⟨_, _, hp, hp',
      hunit b b' _ _ (fun hb => by rw [hb]) hsame, act.fuLast hgo (act.part hpart) hnext hend,
      act'.fuLast hgo' (act'.part hpart') hnext hend⟩

end Payload

/-! ## One packet for both -/

/-- How the handlers are related after the packet `w₀`, when the packets `ws` are still to be sent
and `lost` were lost since. -/
inductive TwinAfter {α β : Type*} (V : StoreView α) (W : StoreView β) (w₀ : WirePacket)
    (lost : Option ℕ) (ws : List WirePacket) (x : α × H264RtpState) (y : β × H264RtpState) : Prop
  | idle (h : TwinIdle V W x y)
  | busy (q : List UInt8) (h : TwinBusy V W x y q) (hne : q ≠ []) (hopen : w₀.LeavesOpen)
      (hpass : ¬ (x.2.needIdr = true ∧ fuType w₀.packet.payload ≠ 5))
      (hlen : lost = some 0 → q.length + openLen ws ≤ fuSize)
  /-- The first handler has returned without a flush. -/
  | stale (hmarker : w₀.marker = true) (hbad : x.2.auBad = true) (hraw : ∃ b, V.Raw x.1 x.2 b)
      (hraw' : W.Raw y.1 y.2 []) (hclean : y.2.auBad = false) (hidr : y.2.auHasIdr = false)
      (hact : x.2.fuActive = false) (hact' : y.2.fuActive = false)

section Settle

variable {α β : Type*} {S : AuStore α} {T : AuStore β} {spspps : List UInt8} {V : StoreView α}
  {W : StoreView β} {x : α × H264RtpState} {y : β × H264RtpState} {silent silent' : Bool}

/-- The marker: both units are emitted, or none is. -/
theorem Twin.flush (law : StoreLaw S spspps silent V) (law' : StoreLaw T spspps silent' W)
    (h : Twin V W x y) (hidle : TwinIdle V W x y) :
    Twin V W (closeUnit S true x) (closeUnit T true y) ∧
      TwinIdle V W (closeUnit S true x) (closeUnit T true y) := by
  obtain ⟨b, b', hraw, hraw', hsame, hact, hact'⟩ := hidle
  obtain ⟨hst, hnil, hem⟩ := law.flush hraw
  obtain ⟨hst', hnil', hem'⟩ := law'.flush hraw'
  have hlen : 0 < x.2.auLen ↔ b ≠ [] := by rw [law.raw_len hraw, List.length_pos_iff]
  have hlen' : 0 < y.2.auLen ↔ b' ≠ [] := by rw [law'.raw_len hraw', List.length_pos_iff]
  have hx : closeUnit S true x = ((S.flush x.1 x.2).1, flushed x.2) := by
    rw [closeUnit, if_pos rfl, hst]
  have hy : closeUnit T true y = ((T.flush y.1 y.2).1, flushed y.2) := by
    rw [closeUnit, if_pos rfl, hst']
  rw [hx, hy]
  refine ⟨⟨?_, ?_, fun hbad => absurd hbad (by simp [flushed, rtpAuReset])⟩, [], [], hnil, hnil',
    .inr ⟨rfl, rfl, rfl, rfl⟩, hact, hact'⟩
  · show W.emitted (T.flush y.1 y.2).1 = V.emitted (S.flush x.1 x.2).1
    rw [hem, hem', h.emitted]
    rcases hsame with ⟨hbad, hbad'⟩ | ⟨hbad, hbad', -, rfl⟩
    · simp [hbad, hbad']
    · simp [hbad, hbad']
  · simp only [flushed, rtpAuReset, h.need]
    rcases hsame with ⟨hbad, hbad'⟩ | ⟨hbad, hbad', hidr, rfl⟩
    · simp [hbad, hbad']
    · simp only [hbad, hbad', hidr, hlen, hlen']

/-- What both make of what was absorbed. -/
theorem TwinAbsorbed.settle (law : StoreLaw S spspps silent V)
    (law' : StoreLaw T spspps silent' W) {w : WirePacket} {ws : List WirePacket} {first : Bool}
    {len : ℕ} {r : α × H264RtpState × Bool} {r' : β × H264RtpState × Bool}
    (h : TwinAbsorbed V W w.packet.payload first len r r')
    (hmark : w.LeavesOpen → w.marker = false)
    (hlen : w.LeavesOpen → fuStart w.packet.payload = first → len + openLen ws ≤ fuSize) :
    Twin V W (Stream.settle S w.marker r) (Stream.settle T w.marker r') ∧
      TwinAfter V W w (some 0) ws (Stream.settle S w.marker r) (Stream.settle T w.marker r') := by
  cases h with
  | idle hgo hgo' htwin hidle =>
    rw [Stream.settle, if_pos hgo, Stream.settle, if_pos hgo']
    cases w.marker with
    | true =>
      obtain ⟨htwin', hidle'⟩ := htwin.flush law law' hidle
      exact ⟨htwin', .idle hidle'⟩
    | false => exact ⟨htwin, .idle hidle⟩
  | busy q hgo hgo' htwin hbusy hne hq hfirst hopen hpass =>
    rw [Stream.settle, if_pos hgo, Stream.settle, if_pos hgo', hmark hopen]
    refine ⟨htwin, .busy q hbusy hne hopen hpass fun _ => ?_⟩
    rw [hq]
    exact hlen hopen hfirst
  | dropped hgo hgo' htwin hidle hbad =>
    have hno : ¬ r.2.2 = true := by simp [hgo]
    rw [Stream.settle, if_neg hno, Stream.settle, if_pos hgo']
    cases hm : w.marker with
    | false => exact ⟨htwin, .idle hidle⟩
    | true =>
      -- One unit is flushed, and being bad it is thrown away; the other one is left as it is.
      obtain ⟨b, b', hraw, hraw', hsame, hact, hact'⟩ := hidle
      have hbad' : r'.2.1.auBad = true := by
        rcases hsame with hboth | hclean
        · exact hboth.2
        · exact absurd (hbad.symm.trans hclean.1) (by simp)
      obtain ⟨hst', hnil', hem'⟩ := law'.flush hraw'
      have hy : closeUnit T true (r'.1, r'.2.1) =
          ((T.flush r'.1 r'.2.1).1, flushed r'.2.1) := by
        rw [closeUnit, if_pos rfl, hst']
      rw [hy]
      refine ⟨⟨?_, ?_, htwin.waits⟩, .stale hm hbad ⟨b, hraw⟩ hnil' rfl rfl hact hact'⟩
      · refine hem'.trans ?_
        simp only [hbad', Bool.true_eq_false, and_false, if_false, List.append_nil]
        exact htwin.emitted
      · exact (flushed_auBad hbad').trans htwin.need

end Settle

/-! ## The prologue for both -/

/-- The prologue on a packet with a new timestamp: marks on a unit without bytes stay. -/
theorem Link.entered_new {α : Type*} {l : Link α} {a : AccessUnit}
    (hfresh : l.st.auHaveTs = false → l.st.auLen = 0)
    (hts : l.st.auHaveTs = true → l.st.auTs ≠ a.ts.toNat) :
    (l.entered a).auLen = 0 ∧
      ((l.entered a).auBad, (l.entered a).auHasIdr) = KeptMarks l.st ∧
      (l.entered a).needIdr = (l.st.needIdr || l.gap || decide (0 < l.st.auLen)) ∧
      (l.entered a).fuActive = (l.st.fuActive && !l.gap) := by
  rcases l.entered_cases a with ⟨hopen, hsame, -⟩ | ⟨-, -, hpos, heq⟩ | ⟨hnew, heq⟩
  · exact absurd hsame (hts hopen)
  · have hne : ¬ l.st.auLen = 0 := by omega
    rw [heq]
    simp [KeptMarks, rtpAuReset, Link.checked, hpos, hne]
  · have hzero : l.st.auLen = 0 := by
      rcases hnew with hclosed | ⟨-, hzero⟩
      · exact hfresh hclosed
      · exact hzero
    rw [heq]
    simp [KeptMarks, Link.checked, hzero]

/-- The prologue on another packet of the same unit. -/
theorem Link.entered_same {α : Type*} {l : Link α} {a : AccessUnit}
    (hopen : l.st.auHaveTs = true) (hts : l.st.auTs = a.ts.toNat) :
    l.entered a = { l.checked with auBad := l.st.auBad || l.gap } := by
  rcases l.entered_cases a with ⟨-, -, heq⟩ | ⟨-, hnew, -⟩ | ⟨hclosed | ⟨hnew, -⟩, -⟩
  · exact heq
  · exact absurd hts hnew
  · exact absurd (hopen.symm.trans hclosed) (by simp)
  · exact absurd hts hnew

section Enter

variable {α β : Type*} {S : AuStore α} {T : AuStore β} {spspps : List UInt8} {V : StoreView α}
  {W : StoreView β} {silent silent' : Bool} {l : Link α} {l' : Link β} {a : AccessUnit}

/-- A new timestamp, at which both keep the same marks. -/
theorem Twin.enter_new (law : StoreLaw S spspps silent V) (law' : StoreLaw T spspps silent' W)
    (h : Twin V W (l.out, l.st) (l'.out, l'.st)) (hgap : l'.gap = l.gap)
    (hraw : ∃ b, V.Raw l.out l.st b) (hraw' : ∃ b, W.Raw l'.out l'.st b)
    (hfresh : l.st.auHaveTs = false → l.st.auLen = 0)
    (hfresh' : l'.st.auHaveTs = false → l'.st.auLen = 0)
    (hts : l.st.auHaveTs = true → l.st.auTs ≠ a.ts.toNat)
    (hts' : l'.st.auHaveTs = true → l'.st.auTs ≠ a.ts.toNat)
    (hmarks : KeptMarks l.st = KeptMarks l'.st)
    (hact : l.gap = true ∨ l.st.fuActive = false ∧ l'.st.fuActive = false)
    (hneed : l.gap = true ∨ l.st.needIdr = true ∨ l'.st.auLen = l.st.auLen) :
    Twin V W (l.out, l.entered a) (l'.out, l'.entered a) ∧
      TwinIdle V W (l.out, l.entered a) (l'.out, l'.entered a) := by
  obtain ⟨hlen, hkept, hwait, hbusy⟩ := Link.entered_new hfresh hts
  obtain ⟨hlen', hkept', hwait', hbusy'⟩ := Link.entered_new hfresh' hts'
  obtain ⟨b, hb⟩ := hraw
  obtain ⟨b', hb'⟩ := hraw'
  have hboth : (l'.entered a).auBad = (l.entered a).auBad ∧
      (l'.entered a).auHasIdr = (l.entered a).auHasIdr := by
    rw [← hmarks, ← hkept, Prod.mk.injEq] at hkept'
    exact hkept'
  have hneedSt : l'.st.needIdr = l.st.needIdr := h.need
  -- Both wait alike, a bad unit waits, and nothing is open on either side.
  refine ⟨⟨h.emitted, ?_, ?_⟩, [], [], law.raw_nil hb hlen, law'.raw_nil hb' hlen', ?_, ?_, ?_⟩
  · show (l'.entered a).needIdr = (l.entered a).needIdr
    rw [hwait, hwait', hgap, hneedSt]
    rcases hneed with hg | hn | hl
    · simp [hg]
    · simp [hn]
    · rw [hl]
  · intro hbad
    have hbad' : l.st.auBad = true := by
      have hfst := congrArg Prod.fst hkept
      have hbadE : (l.entered a).auBad = true := hbad
      simp only [KeptMarks, hbadE] at hfst
      exact (Bool.and_eq_true_iff.1 hfst.symm).1
    have hwaits : l.st.needIdr = true := h.waits hbad'
    show (l.entered a).needIdr = true
    rw [hwait, hwaits]
    rfl
  · unfold SameUnit
    rw [hboth.1]
    cases hbad : (l.entered a).auBad with
    | true => exact .inl ⟨rfl, rfl⟩
    | false => exact .inr ⟨rfl, rfl, hboth.2, rfl⟩
  · show (l.entered a).fuActive = false
    rw [hbusy]
    rcases hact with hg | ⟨hf, -⟩
    · simp [hg]
    · simp [hf]
  · show (l'.entered a).fuActive = false
    rw [hbusy', hgap]
    rcases hact with hg | ⟨-, hf⟩
    · simp [hg]
    · simp [hf]

/-- A gap inside a unit spoils it for both. -/
theorem Twin.enter_gap (law : StoreLaw S spspps silent V) (law' : StoreLaw T spspps silent' W)
    (h : Twin V W (l.out, l.st) (l'.out, l'.st)) (hgap' : l'.gap = l.gap)
    (hraw : ∃ b, V.Raw l.out l.st b) (hraw' : ∃ b, W.Raw l'.out l'.st b)
    (hopen : l.st.auHaveTs = true) (hopen' : l'.st.auHaveTs = true)
    (hts : l.st.auTs = a.ts.toNat) (hts' : l'.st.auTs = a.ts.toNat) (hgap : l.gap = true) :
    Twin V W (l.out, l.entered a) (l'.out, l'.entered a) ∧
      TwinIdle V W (l.out, l.entered a) (l'.out, l'.entered a) := by
  obtain ⟨b, hb⟩ := hraw
  obtain ⟨b', hb'⟩ := hraw'
  have hneedSt : l'.st.needIdr = l.st.needIdr := h.need
  rw [Link.entered_same hopen hts, Link.entered_same hopen' hts']
  rw [hgap] at hgap'
  refine ⟨⟨h.emitted, ?_, ?_⟩, b, b', law.raw_of hb rfl rfl, law'.raw_of hb' rfl rfl, ?_, ?_, ?_⟩
  · simp [Link.checked, hneedSt, hgap, hgap']
  · intro _
    simp [Link.checked, hgap]
  · exact .inl ⟨by simp [hgap], by simp [hgap']⟩
  · simp [Link.checked, hgap]
  · simp [Link.checked, hgap']

/-- Without a gap, the prologue changes nothing that matters inside a unit. -/
theorem Twin.enter_same (h : Twin V W (l.out, l.st) (l'.out, l'.st)) (hgap : l.gap = false)
    (hopen : l.st.auHaveTs = true) (hopen' : l'.st.auHaveTs = true)
    (hts : l.st.auTs = a.ts.toNat) (hts' : l'.st.auTs = a.ts.toNat) (hgap' : l'.gap = l.gap) :
    Twin V W (l.out, l.entered a) (l'.out, l'.entered a) ∧
      l.entered a = { l.st with haveSeq := true, lastSeq := l.sent % 65536 } ∧
      l'.entered a = { l'.st with haveSeq := true, lastSeq := l'.sent % 65536 } := by
  have heq : l.entered a = { l.st with haveSeq := true, lastSeq := l.sent % 65536 } := by
    rw [Link.entered_same hopen hts]
    simp [Link.checked, hgap]
  have heq' : l'.entered a = { l'.st with haveSeq := true, lastSeq := l'.sent % 65536 } := by
    rw [Link.entered_same hopen' hts']
    simp [Link.checked, hgap', hgap]
  refine ⟨?_, heq, heq'⟩
  rw [heq, heq']
  exact ⟨h.emitted, h.need, h.waits⟩

end Enter

/-! ## Runs side by side -/

/-- Nothing was delivered yet. -/
structure TwinFresh {α β : Type*} (V : StoreView α) (W : StoreView β) (l : Link α) (l' : Link β) :
    Prop where
  lost : l.lost = none
  haveTs : l.st.auHaveTs = false
  haveTs' : l'.st.auHaveTs = false
  marks : KeptMarks l.st = KeptMarks l'.st
  auLen : l.st.auLen = 0
  auLen' : l'.st.auLen = 0
  idle : TwinIdle V W (l.out, l.st) (l'.out, l'.st)

/-- The packet `w₀` was delivered last. -/
structure TwinSince {α β : Type*} (V : StoreView α) (W : StoreView β) (l : Link α) (l' : Link β)
    (ws : List WirePacket) (w₀ : WirePacket) : Prop where
  lost : l.lost ≠ none
  haveTs : l.st.auHaveTs = true
  haveTs' : l'.st.auHaveTs = true
  ts : l.st.auTs = w₀.unit.ts.toNat
  ts' : l'.st.auTs = w₀.unit.ts.toNat
  after : TwinAfter V W w₀ l.lost ws (l.out, l.st) (l'.out, l'.st)
  follows : l.lost = some 0 → ∀ w ∈ ws.head?, Follows w₀ w

/-- The links of the two handlers, in front of the packets `ws`. -/
structure Linked {α β : Type*} (V : StoreView α) (W : StoreView β) (l : Link α) (l' : Link β)
    (ws : List WirePacket) : Prop where
  seq : l.SeqInv
  seq' : l'.SeqInv
  lost : l'.lost = l.lost
  twin : Twin V W (l.out, l.st) (l'.out, l'.st)
  stage : TwinFresh V W l l' ∨ ∃ w₀, TwinSince V W l l' ws w₀

section Linked

variable {α β : Type*} {S : AuStore α} {T : AuStore β} {spspps : List UInt8} {V : StoreView α}
  {W : StoreView β} {l : Link α} {l' : Link β} {w : WirePacket} {ws : List WirePacket}

theorem Linked.gap (h : Linked V W l l' ws) : l'.gap = l.gap := by
  unfold Link.gap
  rw [h.lost]

theorem TwinAfter.raw (law : StoreLaw S spspps true V) (law' : StoreLaw T spspps false W)
    {w₀ : WirePacket} {lost : Option ℕ} {x : α × H264RtpState} {y : β × H264RtpState}
    (h : TwinAfter V W w₀ lost ws x y) : (∃ b, V.Raw x.1 x.2 b) ∧ ∃ b, W.Raw y.1 y.2 b := by
  cases h with
  | idle h =>
    obtain ⟨b, b', hraw, hraw', -⟩ := h
    exact ⟨⟨b, hraw⟩, b', hraw'⟩
  | busy q h =>
    obtain ⟨b, b', hpart, hpart', -⟩ := h
    exact ⟨law.part_raw hpart, law'.part_raw hpart'⟩
  | stale _ _ hraw hraw' => exact ⟨hraw, _, hraw'⟩

/-- Behind the prologue no fragment is in progress, or `w` is the next fragment of the same NAL
unit for both. -/
def TwinReady (V : StoreView α) (W : StoreView β) (l : Link α) (l' : Link β) (w : WirePacket)
    (ws : List WirePacket) : Prop :=
  TwinIdle V W (l.out, l.entered w.unit) (l'.out, l'.entered w.unit) ∨
    (l.gap = false ∧ w.Continues ∧
      ¬ ((l.entered w.unit).needIdr = true ∧ fuType w.packet.payload ≠ 5) ∧
      ∃ q, TwinBusy V W (l.out, l.entered w.unit) (l'.out, l'.entered w.unit) q ∧ q ≠ [] ∧
        q.length + openLen (w :: ws) ≤ fuSize)

/-- The prologue on a packet of the unit of the packet delivered last. -/
theorem TwinSince.enter_same (law : StoreLaw S spspps true V) (law' : StoreLaw T spspps false W)
    (act : ActiveLaw S spspps V) {w₀ : WirePacket} (hsince : TwinSince V W l l' (w :: ws) w₀)
    (hgap' : l'.gap = l.gap) (htwin : Twin V W (l.out, l.st) (l'.out, l'.st))
    (hok : StaysTogether l l' w) (hts : w₀.unit.ts = w.unit.ts) :
    Twin V W (l.out, l.entered w.unit) (l'.out, l'.entered w.unit) ∧
      TwinReady V W l l' w ws := by
  have hsame : l.st.auTs = w.unit.ts.toNat := by rw [hsince.ts, hts]
  have hsame' : l'.st.auTs = w.unit.ts.toNat := by rw [hsince.ts', hts]
  cases hgap : l.gap with
  | true =>
    obtain ⟨hraw, hraw'⟩ := hsince.after.raw law law'
    obtain ⟨htwin', hidle⟩ := htwin.enter_gap law law' hgap' hraw hraw' hsince.haveTs
      hsince.haveTs' hsame hsame' hgap
    exact ⟨htwin', .inl hidle⟩
  | false =>
    obtain ⟨htwin', heq, heq'⟩ := htwin.enter_same hgap hsince.haveTs hsince.haveTs' hsame hsame'
      hgap'
    refine ⟨htwin', ?_⟩
    unfold TwinReady
    rw [heq, heq']
    -- Without a gap, nothing was lost or the loss is hidden.
    have hlost : l.lost = some 0 ∨ HiddenLoss l := by
      by_cases hzero : l.lost = some 0
      · exact .inl hzero
      · exact .inr ⟨hgap, hsince.lost, hzero⟩
    cases hsince.after with
    | idle h =>
      obtain ⟨b, b', hraw, hraw', hunit, hact, hact'⟩ := h
      exact .inl ⟨b, b', law.raw_of hraw rfl rfl, law'.raw_of hraw' rfl rfl, hunit, hact, hact'⟩
    | busy q h hne hopen hpass hlen =>
      obtain ⟨b, b', hpart, hpart', hunit⟩ := h
      rcases hlost with hzero | hhidden
      · obtain ⟨hcont, htype, -⟩ := (hsince.follows hzero w rfl).continues hopen
        rw [← htype] at hpass
        exact .inr ⟨hgap, hcont, hpass, q, ⟨b, b', law.part_of hpart rfl rfl rfl rfl rfl,
          law'.part_of hpart' rfl rfl rfl rfl rfl, hunit⟩, hne, hlen hzero⟩
      · exact absurd ((act.part hpart).symm.trans (hok.hidden hhidden).1) (by simp)
    | stale hmarker hbad _ _ hclean =>
      rcases hlost with hzero | hhidden
      · exact absurd hts.symm ((hsince.follows hzero w rfl).ts hmarker)
      · have heqBad := (hok.hidden hhidden).2
        have hbadX : l.st.auBad = true := hbad
        have hcleanY : l'.st.auBad = false := hclean
        rw [hbadX, hcleanY] at heqBad
        exact absurd heqBad (by simp)

/-- The prologue on a packet of another unit. -/
theorem TwinSince.enter_new (law : StoreLaw S spspps true V) (law' : StoreLaw T spspps false W)
    (act : ActiveLaw S spspps V) {w₀ : WirePacket} (hsince : TwinSince V W l l' (w :: ws) w₀)
    (hgap' : l'.gap = l.gap) (htwin : Twin V W (l.out, l.st) (l'.out, l'.st))
    (hok : StaysTogether l l' w) (hts : w₀.unit.ts ≠ w.unit.ts) :
    Twin V W (l.out, l.entered w.unit) (l'.out, l'.entered w.unit) ∧
      TwinReady V W l l' w ws := by
  have hnew : l.st.auTs ≠ w.unit.ts.toNat := by
    rw [hsince.ts]
    exact fun heq => hts (UInt32.toNat_inj.1 heq)
  have hnew' : l'.st.auTs ≠ w.unit.ts.toNat := by
    rw [hsince.ts', ← hsince.ts]
    exact hnew
  obtain ⟨hraw, hraw'⟩ := hsince.after.raw law law'
  have hready : (l.gap = true ∨ l.st.fuActive = false ∧ l'.st.fuActive = false) ∧
      (l.gap = true ∨ l.st.needIdr = true ∨ l'.st.auLen = l.st.auLen) := by
    cases hgap : l.gap with
    | true => exact ⟨.inl rfl, .inl rfl⟩
    | false =>
      cases hsince.after with
      | idle h =>
        obtain ⟨b, b', hb, hb', hunit, hact, hact'⟩ := h
        refine ⟨.inr ⟨hact, hact'⟩, .inr ?_⟩
        rcases hunit with hbad | ⟨-, -, -, hbytes⟩
        · exact .inl (htwin.waits hbad.1)
        · have hlen : l.st.auLen = b.length := law.raw_len hb
          have hlen' : l'.st.auLen = b'.length := law'.raw_len hb'
          exact .inr (by rw [hlen, hlen', hbytes])
      | busy q h hne hopen =>
        -- A NAL unit in progress is continued in its own unit.
        obtain ⟨b, b', hpart, -, -⟩ := h
        by_cases hzero : l.lost = some 0
        · obtain ⟨-, -, hunit⟩ := (hsince.follows hzero w rfl).continues hopen
          exact absurd hunit.symm hts
        · have hidle := (hok.hidden ⟨hgap, hsince.lost, hzero⟩).1
          exact absurd ((act.part hpart).symm.trans hidle) (by simp)
      | stale _ hbad _ _ _ _ hact hact' =>
        exact ⟨.inr ⟨hact, hact'⟩, .inr (.inl (htwin.waits hbad))⟩
  obtain ⟨htwin', hidle⟩ := htwin.enter_new law law' hgap' hraw hraw'
    (fun hfalse => absurd (hsince.haveTs.symm.trans hfalse) (by simp))
    (fun hfalse => absurd (hsince.haveTs'.symm.trans hfalse) (by simp)) (fun _ => hnew)
    (fun _ => hnew') (hok.marks hsince.haveTs hnew) hready.1 hready.2
  exact ⟨htwin', .inl hidle⟩

/-- The prologue on the next packet. -/
theorem Linked.enter (law : StoreLaw S spspps true V) (law' : StoreLaw T spspps false W)
    (act : ActiveLaw S spspps V) (h : Linked V W l l' (w :: ws)) (hok : StaysTogether l l' w) :
    Twin V W (l.out, l.entered w.unit) (l'.out, l'.entered w.unit) ∧
      TwinReady V W l l' w ws := by
  rcases h.stage with hfresh | ⟨w₀, hsince⟩
  · obtain ⟨b, b', hraw, hraw', -, hact, hact'⟩ := hfresh.idle
    obtain ⟨htwin, hidle⟩ := h.twin.enter_new law law' h.gap ⟨b, hraw⟩ ⟨b', hraw'⟩
      (a := w.unit) (fun _ => hfresh.auLen) (fun _ => hfresh.auLen')
      (fun hopen => absurd (hopen.symm.trans hfresh.haveTs) (by simp))
      (fun hopen => absurd (hopen.symm.trans hfresh.haveTs') (by simp)) hfresh.marks
      (.inr ⟨hact, hact'⟩) (.inr (.inr (by rw [hfresh.auLen, hfresh.auLen'])))
    exact ⟨htwin, .inl hidle⟩
  · by_cases hts : w₀.unit.ts = w.unit.ts
    · exact hsince.enter_same law law' act h.gap h.twin hok hts
    · exact hsince.enter_new law law' act h.gap h.twin hok hts

/-- What a payload and a flush leave of the head of the state. -/
theorem settle_sameHead {silent : Bool} (law : StoreLaw S spspps silent V) {s : α}
    {e : H264RtpState} {b payload : List UInt8} (hraw : V.Raw s e b) (seqGap marked : Bool)
    (hne : payload ≠ []) :
    SameHead e (settle S marked (absorb S spspps s e seqGap payload)).2 := by
  obtain ⟨-, hk, -, b', hb'⟩ := absorb_stays law hraw seqGap hne
  generalize absorb S spspps s e seqGap payload = r at hk hb'
  unfold settle closeUnit
  split
  · split
    · rw [(law.flush hb').1]
      exact hk.1
    · exact hk.1
  · exact hk.1

/-- A packet that is lost. -/
theorem Linked.lose (h : Linked V W l l' (w :: ws)) :
    Linked V W { l with sent := l.sent + 1, lost := l.lost.map (· + 1) }
      { l' with sent := l'.sent + 1, lost := l'.lost.map (· + 1) } ws := by
  refine ⟨h.seq.lose, h.seq'.lose, by rw [h.lost], h.twin, ?_⟩
  have hpos : ∀ lost : Option ℕ, lost.map (· + 1) ≠ some 0 := by
    intro lost
    cases lost <;> simp
  rcases h.stage with hfresh | ⟨w₀, hsince⟩
  · exact .inl ⟨by simp [hfresh.lost], hfresh.haveTs, hfresh.haveTs', hfresh.marks, hfresh.auLen,
      hfresh.auLen', hfresh.idle⟩
  · refine .inr ⟨w₀, by simpa using hsince.lost, hsince.haveTs, hsince.haveTs', hsince.ts,
      hsince.ts', ?_, fun hzero => absurd hzero (hpos _)⟩
    cases hsince.after with
    | idle hidle => exact .idle hidle
    | busy q hbusy hne hopen hpass _ =>
      exact .busy q hbusy hne hopen hpass fun hzero => absurd hzero (hpos _)
    | stale hmarker hbad hraw hraw' hclean hidr hact hact' =>
      exact .stale hmarker hbad hraw hraw' hclean hidr hact hact'

/-- A packet that is delivered. -/
theorem Linked.deliver (law : StoreLaw S spspps true V) (law' : StoreLaw T spspps false W)
    (act : ActiveLaw S spspps V) (act' : ActiveLaw T spspps W)
    (hfits : ∀ n, n ≤ fuSize → V.Fits n ∧ W.Fits n) (h : Linked V W l l' (w :: ws))
    (hcut : WellCut (w :: ws)) (harr : w.packet.arrives = true) (hok : StaysTogether l l' w)
    (hroom : V.Room l.out (l.entered w.unit)
      (added spspps l.gap (l.entered w.unit).needIdr w.packet.payload).length)
    (hroom' : W.Room l'.out (l'.entered w.unit)
      (added spspps l'.gap (l'.entered w.unit).needIdr w.packet.payload).length) :
    Linked V W (l.send (h264Handler S spspps) w) (l'.send (h264Handler T spspps) w) ws := by
  obtain ⟨hne, hmark, hfollows, hfirst, -⟩ := hcut
  obtain ⟨htwin, hready⟩ := h.enter law law' act hok
  have hraws : (∃ b, V.Raw l.out (l.entered w.unit) b) ∧
      ∃ b, W.Raw l'.out (l'.entered w.unit) b := by
    rcases hready with ⟨b, b', hraw, hraw', -⟩ | ⟨-, -, -, q, ⟨b, b', hpart, hpart', -⟩, -⟩
    · exact ⟨⟨b, hraw⟩, b', hraw'⟩
    · exact ⟨law.part_raw hpart, law'.part_raw hpart'⟩
  have hsend : l.send (h264Handler S spspps) w = l.after
      (settle S w.marker (absorb S spspps l.out (l.entered w.unit) l.gap w.packet.payload)) :=
    send_absorb h.seq harr hne
  have hsend' : l'.send (h264Handler T spspps) w = l'.after
      (settle T w.marker (absorb T spspps l'.out (l'.entered w.unit) l.gap w.packet.payload)) := by
    rw [← h.gap]
    exact send_absorb h.seq' harr hne
  rw [h.gap] at hroom'
  obtain ⟨⟨b, hraw⟩, b', hraw'⟩ := hraws
  have hin : Inside (l.send (h264Handler S spspps) w) w.unit := by
    rw [hsend]
    exact .of_after (settle_sameHead law hraw _ _ hne)
  have hin' : Inside (l'.send (h264Handler T spspps) w) w.unit := by
    rw [hsend']
    exact .of_after (settle_sameHead law' hraw' _ _ hne)
  have hafter : Twin V W
        (settle S w.marker (absorb S spspps l.out (l.entered w.unit) l.gap w.packet.payload))
        (settle T w.marker (absorb T spspps l'.out (l'.entered w.unit) l.gap w.packet.payload)) ∧
      TwinAfter V W w (some 0) ws
        (settle S w.marker (absorb S spspps l.out (l.entered w.unit) l.gap w.packet.payload))
        (settle T w.marker (absorb T spspps l'.out (l'.entered w.unit) l.gap w.packet.payload)) := by
    -- Both receivers are between two NAL units, or inside of the same FU-A.
    rcases hready with hidle | ⟨hgap, hcont, hpass, q, hbusy, hq, hlen⟩
    · have habsorbed := absorb_idle law law' act act' htwin hidle l.gap hne
        (fun h28 hstart => by
          obtain ⟨hend, hfit⟩ := hfirst h28 hstart
          have hle : 1 + (w.packet.payload.drop 2).length ≤ fuSize := by omega
          exact ⟨hend, (hfits _ hle).1, (hfits _ hle).2⟩)
        (fun hgap h28 htwo hstart hpass => by
          obtain ⟨-, -, -, -, -, hact, -⟩ := hidle
          exact hok.orphan ⟨hgap, ⟨h28, htwo, hstart⟩, hact, hpass⟩) hroom hroom'
      exact habsorbed.settle law law' hmark fun hopen hstart => (hfirst hopen.1 hstart).2
    · rw [openLen, if_pos hcont] at hlen
      have hle : q.length + (w.packet.payload.drop 2).length ≤ fuSize := by omega
      rw [hgap] at hroom hroom' ⊢
      have habsorbed := absorb_busy law law' act act' htwin hbusy hq hcont hpass (hfits _ hle).1
        (hfits _ hle).2 hroom hroom'
      refine habsorbed.settle law law' hmark fun hopen _ => ?_
      rw [hopen.2.2] at hlen
      simp only [Bool.false_eq_true, if_false] at hlen
      omega
  refine ⟨hin.seq, hin'.seq, by rw [hin.lost, hin'.lost], ?_, .inr ⟨w, ?_⟩⟩
  · rw [hsend, hsend']
    exact hafter.1
  · refine ⟨by rw [hin.lost]; simp, hin.haveTs, hin'.haveTs, hin.ts, hin'.ts, ?_,
      fun _ => hfollows⟩
    rw [hsend, hsend']
    exact hafter.2

/-- Any packets. -/
theorem Linked.run (law : StoreLaw S spspps true V) (law' : StoreLaw T spspps false W)
    (act : ActiveLaw S spspps V) (act' : ActiveLaw T spspps W)
    (hfits : ∀ n, n ≤ fuSize → V.Fits n ∧ W.Fits n) (ws : List WirePacket) (rest : List WirePacket) :
    ∀ {l : Link α} {l' : Link β}, Linked V W l l' (ws ++ rest) → WellCut (ws ++ rest) →
      StayTogether (h264Handler S spspps) (h264Handler T spspps) l l' ws →
      Roomy V S spspps l ws → Roomy W T spspps l' ws →
        Linked V W (l.run (h264Handler S spspps) ws) (l'.run (h264Handler T spspps) ws) rest := by
  induction ws with
  | nil =>
    intro l l' h _ _ _ _
    exact h
  | cons w ws ih =>
    intro l l' h hcut hok hroom hroom'
    rw [List.cons_append] at h hcut
    refine ih ?_ hcut.2.2.2.2 hok.2 hroom.2 hroom'.2
    by_cases harr : w.packet.arrives = true
    · exact h.deliver law law' act act' hfits hcut harr (hok.1 harr) (hroom.1 harr) (hroom'.1 harr)
    · have hgone : w.packet.arrives = false := by simpa using harr
      rw [Link.send_of_lost hgone, Link.send_of_lost hgone]
      exact h.lose

end Linked

/-! ## The two handlers -/

/-- Two zeroed receivers. -/
theorem Linked.start (bs : BitstreamMem) (spspps : List UInt8) (mem : ℕ → UInt8)
    (sched : List ℕ) (first : ℕ) (ws : List WirePacket) :
    Linked (bufferedView spspps) (directView bs spspps) (bufferedStart first)
      (directStart bs mem sched first) ws := by
  have hd := DirectInv.start bs mem sched first
  have hraw : (bufferedView spspps).Raw [] {} [] := ⟨rfl, rfl⟩
  have hidle : TwinIdle (bufferedView spspps) (directView bs spspps)
      ((bufferedStart first).out, (bufferedStart first).st)
      ((directStart bs mem sched first).out, (directStart bs mem sched first).st) :=
    ⟨[], [], hraw, hd.staged, .inr ⟨rfl, rfl, rfl, rfl⟩, rfl, rfl⟩
  exact ⟨⟨rfl, by simp [bufferedStart]⟩, hd.seq, rfl, ⟨rfl, rfl, fun hbad => by
    exact absurd hbad (by simp [bufferedStart])⟩,
    .inl ⟨rfl, rfl, rfl, rfl, rfl, rfl, hidle⟩⟩

/-- Whether the buffers have room for each packet can be computed. -/
instance decidableBufferedRoomy (spspps : List UInt8) :
    ∀ (l : Link (List (List UInt8))) (ws : List WirePacket),
      Decidable (Roomy (bufferedView spspps) bufferedStore spspps l ws)
  | _, [] => .isTrue trivial
  | l, w :: ws =>
    have := decidableBufferedRoomy spspps (l.send (h264Handler bufferedStore spspps) w) ws
    inferInstanceAs (Decidable
      ((w.packet.arrives = true → (l.entered w.unit).auLen +
          (if (l.entered w.unit).fuActive then 4 + (l.entered w.unit).fuLen else 0) +
          (added spspps l.gap (l.entered w.unit).needIdr w.packet.payload).length ≤ auSize) ∧
        Roomy (bufferedView spspps) bufferedStore spspps
          (l.send (h264Handler bufferedStore spspps) w) ws))

/-- The two handlers emit the same access units at every moment of every run in which they stay
together and have room. -/
theorem h264_handlers_agree (spspps : List UInt8) (units : List H264Unit)
    (hts : units.IsChain fun u v => u.ts ≠ v.ts) (hfits : ∀ u ∈ units, FuFits u) (first : ℕ)
    (bs : BitstreamMem) (mem : ℕ → UInt8) (sched : List ℕ) (ws rest : List WirePacket)
    (hwire : h264Wire units = ws ++ rest)
    (hroom : Roomy (bufferedView spspps) bufferedStore spspps (bufferedStart first) ws)
    (hroom' : Roomy (directView bs spspps) directStore spspps (directStart bs mem sched first) ws)
    (htogether : StayTogether (handleRtpH264 spspps) (handleRtpH264Direct spspps)
      (bufferedStart first) (directStart bs mem sched first) ws) :
    committed ((directStart bs mem sched first).run (handleRtpH264Direct spspps) ws).out =
      ((bufferedStart first).run (handleRtpH264 spspps) ws).out := by
  have hcut := wellCut_units units hts hfits
  rw [hwire] at hcut
  exact ((Linked.start bs spspps mem sched first (ws ++ rest)).run (bufferedLaw spspps)
    (directLaw bs spspps) (bufferedActive spspps) (directActive bs spspps)
    (fun n hn => ⟨hn, trivial⟩) ws rest hcut htogether hroom hroom').twin.emitted

/-- An IDR slice behind its parameter sets, a P slice that loses its second fragment, and another
IDR slice: both handlers emit the first and the last picture. -/
theorem h264_handlers_agree_fragment_lost :
    ∃ (units : List H264Unit) (ws : List WirePacket), h264Wire units = ws ++ [] ∧
      committed ((directStart ⟨4096, by decide⟩ (fun _ => 0) [2, 9] 65533).run
          (handleRtpH264Direct [7]) ws).out =
        ((bufferedStart 65533).run (handleRtpH264 [7]) ws).out ∧
      ((bufferedStart 65533).run (handleRtpH264 [7]) ws).out =
        [[0, 0, 0, 1, 0x67, 1, 0, 0, 0, 1, 0x68, 2, 7, 0, 0, 0, 1, 0x65, 3],
          [7, 0, 0, 0, 1, 0x65, 8]] := by
  let u : H264Unit :=
    { ts := 1
      groups := [.stapA {} 3 [⟨0x67, [1], by decide⟩, ⟨0x68, [2], by decide⟩] (by decide),
        .single {} ⟨0x65, [3], by decide⟩] }
  let v : H264Unit :=
    { ts := 2
      groups := [.fuA 0x41 (by decide) { data := [4] }
        [{ data := [5], envelope := { arrives := false } }, { data := [6] }] { data := [7] }] }
  let t : H264Unit := { ts := 3, groups := [.single {} ⟨0x65, [8], by decide⟩] }
  have hts : [u, v, t].IsChain fun x y => x.ts ≠ y.ts := by simp [u, v, t]
  have hfits : ∀ x ∈ [u, v, t], FuFits x := by
    unfold FuFits
    decide
  have hagree := h264_handlers_agree [7] [u, v, t] hts hfits 65533 ⟨4096, by decide⟩ (fun _ => 0)
    [2, 9] (h264Wire [u, v, t]) [] (List.append_nil _).symm (by decide +kernel)
    (by decide +kernel) (by decide +kernel)
  exact ⟨[u, v, t], _, (List.append_nil _).symm, hagree, by decide +kernel⟩

/-- A P slice, then an IDR picture in two slices of which the first one, in three fragments, loses
its first fragment.  The gap shows on the second fragment, and the third one finds no NAL unit in
progress: `handle_rtp_h264` emits the other slice, and `handle_rtp_h264_direct` emits nothing. -/
theorem h264_handlers_disagree :
    ¬ ∀ (spspps : List UInt8) (units : List H264Unit), (units.IsChain fun u v => u.ts ≠ v.ts) →
      (∀ u ∈ units, BufferFits spspps u) →
      ∀ (first : ℕ) (bs : BitstreamMem) (mem : ℕ → UInt8) (sched : List ℕ),
        Roomy (bufferedView spspps) bufferedStore spspps (bufferedStart first)
          (h264Wire units) →
        Roomy (directView bs spspps) directStore spspps (directStart bs mem sched first)
          (h264Wire units) →
        (committed ((directStart bs mem sched first).run (handleRtpH264Direct spspps)
            (h264Wire units)).out).flatten =
          ((bufferedStart first).run (handleRtpH264 spspps) (h264Wire units)).out.flatten := by
  let u : H264Unit := { ts := 1, groups := [.single {} ⟨0x41, [1], by decide⟩] }
  let v : H264Unit :=
    { ts := 2
      groups := [.fuA 0x65 (by decide) { data := [2], envelope := { arrives := false } }
        [{ data := [3] }] { data := [4] }, .single {} ⟨0x65, [5], by decide⟩] }
  have hts : [u, v].IsChain fun x y => x.ts ≠ y.ts := by simp [u, v]
  have hfits : ∀ x ∈ [u, v], BufferFits [] x := by
    unfold BufferFits FuFits
    decide
  intro hagree
  have heq := hagree [] [u, v] hts hfits 0 ⟨4096, by decide⟩ (fun _ => 0) [] (by decide +kernel)
    (by decide +kernel)
  have hdirect : (committed ((directStart ⟨4096, by decide⟩ (fun _ => 0) [] 0).run
      (handleRtpH264Direct []) (h264Wire [u, v])).out).flatten = [0, 0, 0, 1, 0x41, 1] := by
    decide +kernel
  have hbuffered : ((bufferedStart 0).run (handleRtpH264 []) (h264Wire [u, v])).out.flatten =
      [0, 0, 0, 1, 0x41, 1, 0, 0, 0, 1, 0x65, 5] := by decide +kernel
  rw [hdirect, hbuffered] at heq
  exact absurd heq (by decide)

end Stream
end ToonVpu
