import ToonVpu.Stream.H264

/-!
# H264Store — what the two places of assembly have in common

`StoreLaw` is what the analysis of lost packets needs from a store: how an append, a fragment and
a flush change the bytes of the open access unit.  Both stores of the H.264 handlers have it.  They
differ in one law: on a fragment whose first one is missing, the direct store marks the unit bad,
while the buffered one drops it silently.
-/

namespace ToonVpu
namespace Stream

open Foundation
open Lib

/-- The header rebuilt from a fragment has the type of the fragmented NAL unit. -/
theorem nalType_fuHdr (payload : List UInt8) : nalType [fuHdr payload] = fuType payload := by
  have hlt : byteAt payload 0 < 256 := UInt8.toNat_lt _
  simp only [nalType, fuHdr, fuType, byteAt, List.getD_cons_zero, UInt8.toNat_ofNat'] at hlt ⊢
  omega

/-! ## What the analysis needs from a store -/

/-- Two states that agree on what only the prologue and a flush change. -/
def Keeps (st st' : H264RtpState) : Prop := SameHead st st' ∧ st'.needIdr = st.needIdr

theorem Keeps.refl (st : H264RtpState) : Keeps st st := ⟨⟨rfl, rfl, rfl, rfl⟩, rfl⟩

theorem Keeps.trans {st₁ st₂ st₃ : H264RtpState} (h : Keeps st₁ st₂) (h' : Keeps st₂ st₃) :
    Keeps st₁ st₃ := by
  obtain ⟨⟨h₁, h₂, h₃, h₄⟩, h₅⟩ := h
  obtain ⟨⟨k₁, k₂, k₃, k₄⟩, k₅⟩ := h'
  exact ⟨⟨k₁.trans h₁, k₂.trans h₂, k₃.trans h₃, k₄.trans h₄⟩, k₅.trans h₅⟩

/-- The parameter sets go before an IDR slice. -/
def pendOf (spspps nal : List UInt8) : List UInt8 := if nalType nal = 5 then spspps else []

theorem pendOf_append {spspps nal rest : List UInt8} (h : nal ≠ []) :
    pendOf spspps (nal ++ rest) = pendOf spspps nal := by
  cases nal with
  | nil => exact absurd rfl h
  | cons x xs => rfl

/-- A store as the analysis sees it: the bytes of the open unit, a fragmented NAL unit in
progress, what was emitted, and how many more bytes of a unit fit. -/
structure StoreView (α : Type*) where
  Raw : α → H264RtpState → List UInt8 → Prop
  /-- The unit before the fragmented NAL unit, and the part of the latter that arrived. -/
  Part : α → H264RtpState → List UInt8 → List UInt8 → Prop
  emitted : α → List (List UInt8)
  Room : α → H264RtpState → ℕ → Prop
  /-- The lengths of the fragmented NAL units that the store takes. -/
  Fits : ℕ → Prop

/-- From a unit `b`, an operation arrives at `r`, with `p` behind `b` if `Done` holds.  It only
fails, marking the unit bad, when there is no room for `p`. -/
def StoreView.Grows {α : Type*} (V : StoreView α) (s : α) (st : H264RtpState) (p : List UInt8)
    (idr : Bool) (r : α × H264RtpState) (Done : Prop) : Prop :=
  V.emitted r.1 = V.emitted s ∧ Keeps st r.2 ∧ r.2.auHasIdr = (st.auHasIdr || idr) ∧
    ((r.2.auBad = st.auBad ∧ Done ∧ ∀ m, V.Room s st (p.length + m) → V.Room r.1 r.2 m) ∨
      (r.2.auBad = true ∧ (∃ b', V.Raw r.1 r.2 b') ∧ ∀ m, ¬ V.Room s st (p.length + m)))

/-- What any operation but a flush leaves alone. -/
def StoreView.Stays {α : Type*} (V : StoreView α) (s : α) (st : H264RtpState)
    (r : α × H264RtpState) : Prop :=
  V.emitted r.1 = V.emitted s ∧ Keeps st r.2 ∧ (st.auBad = true → r.2.auBad = true) ∧
    ∃ b', V.Raw r.1 r.2 b'

/-- The laws of a store; `silent` tells whether it drops a fragment whose first one is missing
without marking the unit bad. -/
structure StoreLaw {α : Type*} (S : AuStore α) (spspps : List UInt8) (silent : Bool)
    (V : StoreView α) : Prop where
  raw_len : ∀ {s st b}, V.Raw s st b → st.auLen = b.length
  raw_of : ∀ {s st st' b}, V.Raw s st b → st'.au = st.au → st'.auLen = st.auLen → V.Raw s st' b
  raw_nil : ∀ {s st st' b}, V.Raw s st b → st'.auLen = 0 → V.Raw s st' []
  part_raw : ∀ {s st b q}, V.Part s st b q → ∃ b', V.Raw s st b'
  part_of : ∀ {s st st' b q}, V.Part s st b q → st'.au = st.au → st'.auLen = st.auLen →
    st'.fu = st.fu → st'.fuLen = st.fuLen → st'.fuActive = st.fuActive → V.Part s st' b q
  fits_mono : ∀ {m n}, V.Fits n → m ≤ n → V.Fits m
  room_of : ∀ {s st st' n}, V.Room s st n → st'.auLen ≤ st.auLen → st'.fuLen ≤ st.fuLen →
    (st'.fuActive = true → st.fuActive = true) → V.Room s st' n
  appendBytes : ∀ {s st b} p, V.Raw s st b →
    V.Grows s st p false (S.appendBytes s st p)
      (V.Raw (S.appendBytes s st p).1 (S.appendBytes s st p).2 (b ++ p))
  appendNal : ∀ {s st b nal}, V.Raw s st b → nal ≠ [] →
    V.Grows s st (startCode ++ nal) false (S.appendNal s st nal)
      (V.Raw (S.appendNal s st nal).1 (S.appendNal s st nal).2 (b ++ (startCode ++ nal)))
  flush : ∀ {s st b}, V.Raw s st b →
    (S.flush s st).2.1 = flushed st ∧ V.Raw (S.flush s st).1 (flushed st) [] ∧
      V.emitted (S.flush s st).1 =
        V.emitted s ++ (if b ≠ [] ∧ st.auBad = false then [b] else [])
  fuStays : ∀ {s st b} seqGap payload, V.Raw s st b →
    V.Stays s st
      ((S.fuA spspps s st seqGap payload).1, (S.fuA spspps s st seqGap payload).2.1)
  fuSkip : ∀ {s st seqGap payload}, seqGap = true ∨ st.needIdr = true ∧ fuType payload ≠ 5 →
    S.fuA spspps s st seqGap payload = (s, st, true)
  /-- A first fragment. -/
  fuFirst : ∀ {s st b payload}, V.Raw s st b → ¬ (st.needIdr = true ∧ fuType payload ≠ 5) →
    fuStart payload = true → fuEnd payload = false → V.Fits (1 + (payload.drop 2).length) →
      (S.fuA spspps s st false payload).2.2 = true ∧
        V.Grows s st
          (pendOf spspps [fuHdr payload] ++ startCode ++ fuHdr payload :: payload.drop 2)
          (decide (fuType payload = 5))
          ((S.fuA spspps s st false payload).1, (S.fuA spspps s st false payload).2.1)
          (V.Part (S.fuA spspps s st false payload).1 (S.fuA spspps s st false payload).2.1 b
            (fuHdr payload :: payload.drop 2))
  /-- A fragment between the first and the last. -/
  fuNext : ∀ {s st b q payload}, V.Part s st b q → ¬ (st.needIdr = true ∧ fuType payload ≠ 5) →
    fuStart payload = false → fuEnd payload = false → V.Fits (q.length + (payload.drop 2).length) →
    q ≠ [] →
      (S.fuA spspps s st false payload).2.2 = true ∧
        V.Grows s st (payload.drop 2) false
          ((S.fuA spspps s st false payload).1, (S.fuA spspps s st false payload).2.1)
          (V.Part (S.fuA spspps s st false payload).1 (S.fuA spspps s st false payload).2.1 b
            (q ++ payload.drop 2))
  /-- The last fragment. -/
  fuLast : ∀ {s st b q payload}, V.Part s st b q → ¬ (st.needIdr = true ∧ fuType payload ≠ 5) →
    fuStart payload = false → fuEnd payload = true → V.Fits (q.length + (payload.drop 2).length) →
    q ≠ [] →
      (S.fuA spspps s st false payload).2.2 = true ∧
        V.Grows s st (payload.drop 2) false
          ((S.fuA spspps s st false payload).1, (S.fuA spspps s st false payload).2.1)
          (V.Raw (S.fuA spspps s st false payload).1 (S.fuA spspps s st false payload).2.1
            (b ++ (pendOf spspps q ++ startCode ++ (q ++ payload.drop 2))))
  /-- A fragment whose first one is missing. -/
  fuOrphan : ∀ {s st payload}, ¬ (st.needIdr = true ∧ fuType payload ≠ 5) →
    st.fuActive = false → fuStart payload = false →
      S.fuA spspps s st false payload =
        if silent then (s, st, false) else (s, { st with auBad := true }, true)

section Grows

variable {α : Type*} {V : StoreView α} {s : α} {st st₁ : H264RtpState} {p q : List UInt8}
  {i j : Bool} {r r' : α × H264RtpState}

theorem StoreView.Grows.mono {D D' : Prop} (h : V.Grows s st p i r D) (hd : D → D') :
    V.Grows s st p i r D' := by
  obtain ⟨hem, hk, hidr, ⟨hb, hdone, hroom⟩ | hbad⟩ := h
  · exact ⟨hem, hk, hidr, .inl ⟨hb, hd hdone, hroom⟩⟩
  · exact ⟨hem, hk, hidr, .inr hbad⟩

/-- One append after another; the second one runs whether or not the first one failed. -/
theorem StoreView.Grows.trans {b : List UInt8} (h : V.Grows s st p i r (V.Raw r.1 r.2 (b ++ p)))
    (h' : ∀ b', V.Raw r.1 r.2 b' → V.Grows r.1 r.2 q j r' (V.Raw r'.1 r'.2 (b' ++ q))) :
    V.Grows s st (p ++ q) (i || j) r' (V.Raw r'.1 r'.2 (b ++ (p ++ q))) := by
  obtain ⟨hem, hk, hidr, hcase⟩ := h
  have hlen : ∀ m, (p ++ q).length + m = p.length + (q.length + m) := by
    intro m
    rw [List.length_append]
    omega
  rcases hcase with ⟨hb, hraw, hroom⟩ | ⟨hb, ⟨b', hraw⟩, hfull⟩
  · obtain ⟨hem', hk', hidr', hcase'⟩ := h' _ hraw
    refine ⟨hem'.trans hem, hk.trans hk', by rw [hidr', hidr, Bool.or_assoc], ?_⟩
    rcases hcase' with ⟨hb', hraw', hroom'⟩ | ⟨hb', hraw', hfull'⟩
    · refine .inl ⟨hb'.trans hb, by rwa [List.append_assoc] at hraw', ?_⟩
      intro m hm
      rw [hlen] at hm
      exact hroom' m (hroom _ hm)
    · refine .inr ⟨hb', hraw', ?_⟩
      intro m hm
      rw [hlen] at hm
      exact hfull' m (hroom _ hm)
  · obtain ⟨hem', hk', hidr', hcase'⟩ := h' _ hraw
    refine ⟨hem'.trans hem, hk.trans hk', by rw [hidr', hidr, Bool.or_assoc], .inr ?_⟩
    have hnone : ∀ m, ¬ V.Room s st ((p ++ q).length + m) := by
      intro m hm
      rw [hlen] at hm
      exact hfull _ hm
    rcases hcase' with ⟨hb', hraw', -⟩ | ⟨hb', hraw', -⟩
    · exact ⟨hb'.trans hb, ⟨_, hraw'⟩, hnone⟩
    · exact ⟨hb', hraw', hnone⟩

theorem StoreView.Grows.stays {b : List UInt8} (h : V.Grows s st p i r (V.Raw r.1 r.2 b)) :
    V.Stays s st r := by
  obtain ⟨hem, hk, -, ⟨hb, hraw, -⟩ | ⟨hb, hraw, -⟩⟩ := h
  · exact ⟨hem, hk, fun hbad => hb.trans hbad, b, hraw⟩
  · exact ⟨hem, hk, fun _ => hb, hraw⟩

theorem StoreView.Stays.trans (h : V.Stays s st r) (h' : ∀ b, V.Raw r.1 r.2 b →
    V.Stays r.1 r.2 r') : V.Stays s st r' := by
  obtain ⟨hem, hk, hbad, b, hraw⟩ := h
  obtain ⟨hem', hk', hbad', hraw'⟩ := h' b hraw
  exact ⟨hem'.trans hem, hk.trans hk', fun hb => hbad' (hbad hb), hraw'⟩

theorem StoreView.Stays.flags {st' : H264RtpState} {b : List UInt8} (hk : Keeps st st')
    (hbad : st.auBad = true → st'.auBad = true) (hraw : V.Raw s st' b) :
    V.Stays s st (s, st') :=
  ⟨rfl, hk, hbad, b, hraw⟩

/-- A change of flags between two appends. -/
theorem StoreView.Grows.flags {st' : H264RtpState} {D : Prop} (hk : Keeps st st')
    (hidr : st'.auHasIdr = (st.auHasIdr || i)) (hbad : st'.auBad = st.auBad)
    (hroom : ∀ m, V.Room s st m → V.Room s st' m) (hd : D) :
    V.Grows s st [] i (s, st') D := by
  refine ⟨rfl, hk, hidr, .inl ⟨hbad, hd, ?_⟩⟩
  intro m hm
  rw [List.length_nil, Nat.zero_add] at hm
  exact hroom m hm

/-- Both handlers start a NAL unit alike: the flag of an IDR slice, then the parameter sets. -/
theorem StoreView.Grows.pend {spspps nal b : List UInt8} (h : V.Raw s st b)
    (hflag : V.Raw s { st with auHasIdr := true } b)
    (hroom : ∀ m, V.Room s st m → V.Room s { st with auHasIdr := true } m)
    (append : α → H264RtpState → α × H264RtpState)
    (happend : ∀ st₁ b₁, V.Raw s st₁ b₁ →
      V.Grows s st₁ spspps false (append s st₁)
        (V.Raw (append s st₁).1 (append s st₁).2 (b₁ ++ spspps)))
    (hst₁ : st₁ = if nalType nal = 5 then { st with auHasIdr := true } else st)
    (hr : r = if nalType nal = 5 ∧ 0 < spspps.length then append s st₁ else (s, st₁)) :
    V.Grows s st (pendOf spspps nal) (decide (nalType nal = 5)) r
      (V.Raw r.1 r.2 (b ++ pendOf spspps nal)) := by
  rw [hr, hst₁, pendOf]
  by_cases hfive : nalType nal = 5
  · have hset : V.Grows s st [] true (s, { st with auHasIdr := true })
        (V.Raw s { st with auHasIdr := true } (b ++ [])) :=
      .flags (Keeps.refl st) (by simp) rfl hroom (by rwa [List.append_nil])
    simp only [hfive, if_true, true_and, decide_true]
    by_cases hpos : 0 < spspps.length
    · rw [if_pos hpos]
      have hall := hset.trans fun b' hb' => happend _ b' hb'
      rwa [List.nil_append, Bool.or_false] at hall
    · have hnil : spspps = [] := List.eq_nil_of_length_eq_zero (by omega)
      rw [if_neg hpos, hnil]
      exact hset
  · simp only [hfive, if_false, false_and, decide_false, List.append_nil]
    exact .flags (Keeps.refl st) (by simp) rfl (fun _ => id) h

end Grows

/-! ## The two stores -/

/-- The buffered store: the unit is the first `auLen` bytes of `au`, a fragmented NAL unit the
first `fuLen` bytes of `fu`. -/
def bufferedView (spspps : List UInt8) : StoreView (List (List UInt8)) where
  Raw _ st b := st.auLen = b.length ∧ st.au.take st.auLen = b
  Part _ st b q :=
    (st.auLen = (b ++ pendOf spspps q).length ∧ st.au.take st.auLen = b ++ pendOf spspps q) ∧
      st.fuActive = true ∧ st.fuLen = q.length ∧ st.fu.take st.fuLen = q
  emitted out := out
  Room _ st n := st.auLen + (if st.fuActive then 4 + st.fuLen else 0) + n ≤ auSize
  Fits n := n ≤ fuSize

/-- The direct store: the unit is staged in the ring, fragments included. -/
def directView (bs : BitstreamMem) (spspps : List UInt8) : StoreView Decoder where
  Raw h st b := Staged bs h st b
  Part h st b q := Staged bs h st (b ++ (pendOf spspps q ++ startCode ++ q)) ∧ st.fuActive = true
  emitted h := Fifo.commits h.events
  Room h st n := h.unread + st.auLen + n + 512 < streamBufSize - 1
  Fits _ := True

section Buffered

variable {spspps : List UInt8} {out : List (List UInt8)} {st : H264RtpState} {b : List UInt8}

theorem pushAu_raw (h : (bufferedView spspps).Raw out st b) (p : List UInt8) :
    (bufferedView spspps).Raw out (st.pushAu p) (b ++ p) := by
  obtain ⟨hlen, htake⟩ := h
  have htl : (st.au.take st.auLen).length = st.auLen := by rw [htake, hlen]
  refine ⟨by simp [H264RtpState.pushAu, hlen], ?_⟩
  show (st.au.take st.auLen ++ p).take (st.auLen + p.length) = b ++ p
  rw [List.take_of_length_le (by rw [List.length_append, htl]), htake]

theorem buffered_appendBytes (h : (bufferedView spspps).Raw out st b) (p : List UInt8) :
    (bufferedView spspps).Grows out st p false (out, rtpAuAppendBytes st p)
      ((bufferedView spspps).Raw out (rtpAuAppendBytes st p) (b ++ p)) := by
  unfold rtpAuAppendBytes
  by_cases hp : p.length = 0
  · have hnil : p = [] := List.eq_nil_of_length_eq_zero hp
    rw [if_pos hp]
    refine ⟨rfl, Keeps.refl st, by simp, .inl ⟨rfl, by simpa [hnil] using h, ?_⟩⟩
    intro m hroom
    simpa [hp] using hroom
  · rw [if_neg hp]
    by_cases hfull : auSize < st.auLen + p.length
    · rw [if_pos hfull]
      refine ⟨rfl, Keeps.refl st, by simp, .inr ⟨rfl, ⟨b, h⟩, ?_⟩⟩
      intro m hroom
      simp only [bufferedView] at hroom
      omega
    · rw [if_neg hfull]
      refine ⟨rfl, Keeps.refl st, by simp [H264RtpState.pushAu], .inl ⟨rfl, pushAu_raw h p, ?_⟩⟩
      intro m hroom
      simp only [bufferedView, H264RtpState.pushAu] at hroom ⊢
      omega

/-- `rtp_au_append` of a NAL unit: no room, or the unit behind its start code. -/
theorem rtpAuAppend_cases (st : H264RtpState) {nal : List UInt8} (hne : nal ≠ []) :
    (auSize < st.auLen + 4 + nal.length ∧ rtpAuAppend st nal = { st with auBad := true }) ∨
      (st.auLen + 4 + nal.length ≤ auSize ∧
        rtpAuAppend st nal = (st.pushAu startCode).pushAu nal) := by
  have hlen : nal.length ≠ 0 := by simpa [List.length_eq_zero_iff] using hne
  have hsc : startCode.length = 4 := rfl
  unfold rtpAuAppend
  rw [hsc]
  by_cases hfull : nal.length = 0 ∨ auSize < st.auLen + 4 + nal.length
  · exact .inl ⟨by omega, if_pos hfull⟩
  · exact .inr ⟨by omega, if_neg hfull⟩

theorem pushNal_raw (h : (bufferedView spspps).Raw out st b) (nal : List UInt8) :
    (bufferedView spspps).Raw out ((st.pushAu startCode).pushAu nal) (b ++ (startCode ++ nal)) := by
  have hraw := pushAu_raw (pushAu_raw h startCode) nal
  rwa [List.append_assoc] at hraw

theorem buffered_appendNal (h : (bufferedView spspps).Raw out st b) {nal : List UInt8}
    (hne : nal ≠ []) :
    (bufferedView spspps).Grows out st (startCode ++ nal) false (out, rtpAuAppend st nal)
      ((bufferedView spspps).Raw out (rtpAuAppend st nal) (b ++ (startCode ++ nal))) := by
  have hsc : startCode.length = 4 := rfl
  rcases rtpAuAppend_cases st hne with ⟨hfull, heq⟩ | ⟨hfit, heq⟩
  · rw [heq]
    refine ⟨rfl, Keeps.refl st, by simp, .inr ⟨rfl, ⟨b, h⟩, ?_⟩⟩
    intro m hroom
    simp only [bufferedView, List.length_append, hsc] at hroom
    omega
  · rw [heq]
    refine ⟨rfl, Keeps.refl st, by simp [H264RtpState.pushAu], .inl ⟨rfl, pushNal_raw h nal, ?_⟩⟩
    intro m hroom
    simp only [bufferedView, H264RtpState.pushAu, List.length_append, hsc] at hroom ⊢
    omega

theorem buffered_flush (h : (bufferedView spspps).Raw out st b) :
    (rtpAuFlush out st).2 = flushed st ∧
      (bufferedView spspps).Raw (rtpAuFlush out st).1 (flushed st) [] ∧
      (rtpAuFlush out st).1 = out ++ (if b ≠ [] ∧ st.auBad = false then [b] else []) := by
  obtain ⟨hlen, htake⟩ := h
  have hpos : 0 < st.auLen ↔ b ≠ [] := by rw [hlen]; exact List.length_pos_iff
  refine ⟨?_, ⟨rfl, rfl⟩, ?_⟩
  · unfold rtpAuFlush flushed
    by_cases hok : 0 < st.auLen ∧ st.auBad = false
    · cases hidr : st.auHasIdr <;> cases hneed : st.needIdr <;>
        simp [hok, hneed, rtpAuReset]
    · have hno : (decide (0 < st.auLen) && !st.auBad && st.auHasIdr) = false := by
        cases hb : st.auBad <;> simp_all
      rw [if_neg hok, hno]
      simp [rtpAuReset]
  · unfold rtpAuFlush
    by_cases hok : 0 < st.auLen ∧ st.auBad = false
    · have hb : b ≠ [] ∧ st.auBad = false := ⟨hpos.1 hok.1, hok.2⟩
      rw [if_pos hok, if_pos hb, htake]
      split <;> rfl
    · rw [if_neg hok, if_neg (by rwa [← hpos])]
      simp

/-- `rtp_au_append_bytes`: no room, or all of `p`. -/
theorem rtpAuAppendBytes_cases (st : H264RtpState) (p : List UInt8) :
    (auSize < st.auLen + p.length ∧ rtpAuAppendBytes st p = { st with auBad := true }) ∨
      rtpAuAppendBytes st p = st ∧ p = [] ∨ rtpAuAppendBytes st p = st.pushAu p := by
  unfold rtpAuAppendBytes
  by_cases hp : p.length = 0
  · exact .inr (.inl ⟨if_pos hp, List.eq_nil_of_length_eq_zero hp⟩)
  · rw [if_neg hp]
    by_cases hfull : auSize < st.auLen + p.length
    · exact .inl ⟨hfull, if_pos hfull⟩
    · exact .inr (.inr (if_neg hfull))

/-- A first fragment: the header goes to `fu`, the parameter sets of an IDR slice to `au`. -/
theorem fuBeginBuffered_spec (h : (bufferedView spspps).Raw out st b) (payload : List UInt8) :
    ∃ st', fuBeginBuffered spspps st payload = st' ∧ Keeps st st' ∧
      st'.auHasIdr = (st.auHasIdr || decide (fuType payload = 5)) ∧ st'.fuActive = true ∧
      st'.fu = [fuHdr payload] ∧ st'.fuLen = 1 ∧
      ((st'.auBad = st.auBad ∧
          (bufferedView spspps).Raw out st' (b ++ pendOf spspps [fuHdr payload])) ∨
        (st'.auBad = true ∧ (bufferedView spspps).Raw out st' b ∧
          auSize < st.auLen + (pendOf spspps [fuHdr payload]).length)) := by
  unfold pendOf fuBeginBuffered
  rw [nalType_fuHdr]
  by_cases hfive : fuType payload = 5
  · simp only [hfive, if_true, true_and, decide_true, Bool.or_true]
    generalize hst₀ : ({ st with
      fu := [fuHdr payload], fuLen := 1, auHasIdr := true } : H264RtpState) = st₀
    have h₀ : (bufferedView spspps).Raw out st₀ b := by rw [← hst₀]; exact h
    by_cases hpos : 0 < spspps.length
    · rw [if_pos hpos]
      rcases rtpAuAppendBytes_cases st₀ spspps with ⟨hfull, heq⟩ | ⟨-, hnil⟩ | heq
      · rw [heq]
        subst hst₀
        exact ⟨_, rfl, Keeps.refl st, rfl, rfl, rfl, rfl, .inr ⟨rfl, h, hfull⟩⟩
      · rw [hnil] at hpos
        exact absurd hpos (Nat.lt_irrefl 0)
      · have hraw := pushAu_raw h₀ spspps
        rw [heq]
        subst hst₀
        exact ⟨_, rfl, Keeps.refl st, rfl, rfl, rfl, rfl, .inl ⟨rfl, hraw⟩⟩
    · have hnil : spspps = [] := List.eq_nil_of_length_eq_zero (by omega)
      rw [if_neg hpos]
      subst hst₀
      refine ⟨_, rfl, Keeps.refl st, rfl, rfl, rfl, rfl, .inl ⟨rfl, ?_⟩⟩
      rw [hnil, List.append_nil]
      rw [hnil] at h
      exact h
  · simp only [hfive, if_false, false_and, decide_false, Bool.or_false, List.append_nil]
    exact ⟨_, rfl, Keeps.refl st, rfl, rfl, rfl, rfl, .inl ⟨rfl, h⟩⟩

/-- A fragment that follows is joined to the NAL unit in progress. -/
theorem fuJoinBuffered_eq (payload : List UInt8) {q : List UInt8} (hact : st.fuActive = true)
    (hlen : st.fuLen = q.length) (hfu : st.fu.take st.fuLen = q)
    (hfits : q.length + (payload.drop 2).length ≤ fuSize) :
    fuJoinBuffered st payload =
      if fuEnd payload then
        ({ rtpAuAppend
            { st with fu := q ++ payload.drop 2, fuLen := (q ++ payload.drop 2).length }
            (q ++ payload.drop 2) with fuActive := false, fuLen := 0 }, true)
      else
        ({ st with fu := q ++ payload.drop 2, fuLen := (q ++ payload.drop 2).length }, true) := by
  have hlen' : st.fuLen + (payload.length - 2) = (q ++ payload.drop 2).length := by
    rw [List.length_append, hlen, List.length_drop]
  have hroom : ¬ (st.fuActive = false ∨ fuSize < (q ++ payload.drop 2).length) := by
    rw [hact, List.length_append]
    simp only [Bool.true_eq_false, false_or]
    omega
  simp only [fuJoinBuffered, hfu, hlen', if_neg hroom, List.take_length]

/-- A fragment that is not passed over. -/
theorem fuABuffered_of_go {payload : List UInt8}
    (hgo : ¬ (st.needIdr = true ∧ fuType payload ≠ 5)) :
    fuABuffered spspps out st false payload =
      (out, fuJoinBuffered (if fuStart payload then fuBeginBuffered spspps st payload else st)
        payload) := by
  have hskip : ¬ (false = true ∨ st.needIdr = true ∧ fuType payload ≠ 5) := by simpa using hgo
  rw [fuABuffered, if_neg hskip]

theorem buffered_fuFirst {payload : List UInt8} (h : (bufferedView spspps).Raw out st b)
    (hgo : ¬ (st.needIdr = true ∧ fuType payload ≠ 5)) (hstart : fuStart payload = true)
    (hend : fuEnd payload = false) (hfits : 1 + (payload.drop 2).length ≤ fuSize) :
    (fuABuffered spspps out st false payload).2.2 = true ∧
      (bufferedView spspps).Grows out st
        (pendOf spspps [fuHdr payload] ++ startCode ++ fuHdr payload :: payload.drop 2)
        (decide (fuType payload = 5))
        ((fuABuffered spspps out st false payload).1,
          (fuABuffered spspps out st false payload).2.1)
        ((bufferedView spspps).Part (fuABuffered spspps out st false payload).1
          (fuABuffered spspps out st false payload).2.1 b (fuHdr payload :: payload.drop 2)) := by
  obtain ⟨st', hbegin, hk, hidr, hact, hfu, hlen, hcase⟩ := fuBeginBuffered_spec h payload
  have hfirst : st'.fu.take st'.fuLen = [fuHdr payload] := by
    rw [hfu, hlen]
    rfl
  have hone : st'.fuLen = [fuHdr payload].length := hlen
  have hjoin := fuJoinBuffered_eq payload hact hone hfirst hfits
  have hresult : fuABuffered spspps out st false payload =
      (out, { st' with
        fu := fuHdr payload :: payload.drop 2
        fuLen := (fuHdr payload :: payload.drop 2).length }, true) := by
    rw [hend, if_neg Bool.false_ne_true] at hjoin
    rw [fuABuffered_of_go hgo, hstart, if_pos rfl, hbegin, hjoin]
    rfl
  have hsc : startCode.length = 4 := rfl
  rw [hresult]
  refine ⟨rfl, rfl, hk, hidr, ?_⟩
  rcases hcase with ⟨hbad, hraw⟩ | ⟨hbad, hraw, hfull⟩
  · refine .inl ⟨hbad, ⟨hraw, hact, rfl, List.take_length⟩, ?_⟩
    intro m hm
    have hlen' : st'.auLen = st.auLen + (pendOf spspps [fuHdr payload]).length := by
      rw [hraw.1, List.length_append, h.1]
    simp only [bufferedView, List.length_append, List.length_cons, hsc, hact, if_true,
      hlen'] at hm ⊢
    omega
  · refine .inr ⟨hbad, ⟨b, hraw⟩, ?_⟩
    intro m hm
    simp only [bufferedView, List.length_append] at hm
    omega

theorem buffered_fuNext {payload q : List UInt8} (h : (bufferedView spspps).Part out st b q)
    (hgo : ¬ (st.needIdr = true ∧ fuType payload ≠ 5)) (hstart : fuStart payload = false)
    (hend : fuEnd payload = false) (hfits : q.length + (payload.drop 2).length ≤ fuSize)
    (hne : q ≠ []) :
    (fuABuffered spspps out st false payload).2.2 = true ∧
      (bufferedView spspps).Grows out st (payload.drop 2) false
        ((fuABuffered spspps out st false payload).1,
          (fuABuffered spspps out st false payload).2.1)
        ((bufferedView spspps).Part (fuABuffered spspps out st false payload).1
          (fuABuffered spspps out st false payload).2.1 b (q ++ payload.drop 2)) := by
  obtain ⟨hraw, hact, hlen, hfu⟩ := h
  have hjoin := fuJoinBuffered_eq payload hact hlen hfu hfits
  rw [hend, if_neg Bool.false_ne_true] at hjoin
  rw [fuABuffered_of_go hgo, hstart, if_neg Bool.false_ne_true, hjoin]
  refine ⟨rfl, rfl, Keeps.refl st, by simp, .inl ⟨rfl, ⟨?_, hact, rfl, List.take_length⟩, ?_⟩⟩
  · rw [pendOf_append hne]
    exact hraw
  · intro m hm
    simp only [bufferedView, hact, if_true, hlen, List.length_append] at hm ⊢
    omega

theorem buffered_fuLast {payload q : List UInt8} (h : (bufferedView spspps).Part out st b q)
    (hgo : ¬ (st.needIdr = true ∧ fuType payload ≠ 5)) (hstart : fuStart payload = false)
    (hend : fuEnd payload = true) (hfits : q.length + (payload.drop 2).length ≤ fuSize)
    (hne : q ≠ []) :
    (fuABuffered spspps out st false payload).2.2 = true ∧
      (bufferedView spspps).Grows out st (payload.drop 2) false
        ((fuABuffered spspps out st false payload).1,
          (fuABuffered spspps out st false payload).2.1)
        ((bufferedView spspps).Raw (fuABuffered spspps out st false payload).1
          (fuABuffered spspps out st false payload).2.1
          (b ++ (pendOf spspps q ++ startCode ++ (q ++ payload.drop 2)))) := by
  obtain ⟨hraw, hact, hlen, hfu⟩ := h
  have hjoin := fuJoinBuffered_eq payload hact hlen hfu hfits
  rw [hend, if_pos rfl] at hjoin
  rw [fuABuffered_of_go hgo, hstart, if_neg Bool.false_ne_true, hjoin]
  refine ⟨rfl, ?_⟩
  generalize hst₁ : ({ st with
    fu := q ++ payload.drop 2, fuLen := (q ++ payload.drop 2).length } : H264RtpState) = st₁
  have hraw₁ : (bufferedView spspps).Raw out st₁ (b ++ pendOf spspps q) := by
    rw [← hst₁]
    exact hraw
  have hqne : q ++ payload.drop 2 ≠ [] := by simp [hne]
  have hsc : startCode.length = 4 := rfl
  have hflags : Keeps st st₁ ∧ st₁.auHasIdr = st.auHasIdr ∧ st₁.auBad = st.auBad ∧
      st₁.auLen = st.auLen := by
    rw [← hst₁]
    exact ⟨Keeps.refl st, rfl, rfl, rfl⟩
  obtain ⟨hk₁, hidr₁, hbad₁, hlen₁⟩ := hflags
  rcases rtpAuAppend_cases st₁ hqne with ⟨hfull, heq⟩ | ⟨-, heq⟩
  · rw [heq]
    refine ⟨rfl, hk₁, by simpa using hidr₁, .inr ⟨rfl, ⟨_, hraw₁⟩, ?_⟩⟩
    intro m hm
    rw [hlen₁, List.length_append] at hfull
    simp only [bufferedView, hact, if_true, hlen] at hm
    omega
  · rw [heq]
    refine ⟨rfl, hk₁, by simpa [H264RtpState.pushAu] using hidr₁, .inl ⟨hbad₁, ?_, ?_⟩⟩
    · have hassoc : b ++ (pendOf spspps q ++ startCode ++ (q ++ payload.drop 2)) =
          b ++ pendOf spspps q ++ (startCode ++ (q ++ payload.drop 2)) := by
        simp only [List.append_assoc]
      rw [hassoc]
      exact pushNal_raw hraw₁ _
    · intro m hm
      simp only [bufferedView, hact, if_true, hlen, H264RtpState.pushAu, hlen₁, hsc,
        List.length_append, Bool.false_eq_true, if_false] at hm ⊢
      omega

theorem fuBeginBuffered_stays (h : (bufferedView spspps).Raw out st b) (payload : List UInt8) :
    (bufferedView spspps).Stays out st (out, fuBeginBuffered spspps st payload) := by
  generalize hst₀ : (if fuType payload = 5 then
    { { st with fu := [fuHdr payload], fuLen := 1 } with auHasIdr := true }
    else { st with fu := [fuHdr payload], fuLen := 1 }) = st₀
  have h₀ : (bufferedView spspps).Stays out st (out, st₀) := by
    rw [← hst₀]
    split <;> exact .flags (Keeps.refl st) id h
  simp only [fuBeginBuffered, hst₀]
  refine h₀.trans fun b₀ hb₀ => ?_
  split
  · exact (buffered_appendBytes hb₀ spspps).stays.trans fun b₁ hb₁ =>
      .flags (Keeps.refl _) id hb₁
  · exact .flags (Keeps.refl _) id hb₀

theorem fuJoinBuffered_stays (h : (bufferedView spspps).Raw out st b) (payload : List UInt8) :
    (bufferedView spspps).Stays out st (out, (fuJoinBuffered st payload).1) := by
  unfold fuJoinBuffered
  split
  · exact .flags (Keeps.refl st) id h
  · generalize hst₁ : ({ st with
      fu := st.fu.take st.fuLen ++ payload.drop 2
      fuLen := st.fuLen + (payload.length - 2) } : H264RtpState) = st₁
    have h₁ : (bufferedView spspps).Stays out st (out, st₁) := by
      rw [← hst₁]
      exact .flags (Keeps.refl st) id h
    have hfu : st₁.fu.take st₁.fuLen = [] ∨ st₁.fu.take st₁.fuLen ≠ [] := by
      by_cases hnil : st₁.fu.take st₁.fuLen = []
      · exact .inl hnil
      · exact .inr hnil
    simp only
    split
    · refine h₁.trans fun b₁ hb₁ => ?_
      rcases hfu with hnil | hne
      · have heq : rtpAuAppend st₁ (st₁.fu.take st₁.fuLen) = { st₁ with auBad := true } := by
          simp [rtpAuAppend, hnil]
        rw [heq]
        exact .flags (Keeps.refl st₁) (fun _ => rfl) hb₁
      · exact (buffered_appendNal hb₁ hne).stays.trans fun b₂ hb₂ =>
          .flags (Keeps.refl _) id hb₂
    · exact h₁

/-- The buffered store drops a fragment whose first one is missing silently. -/
theorem bufferedLaw (spspps : List UInt8) :
    StoreLaw bufferedStore spspps true (bufferedView spspps) where
  raw_len h := h.1
  raw_of h hau hlen := ⟨hlen.trans h.1, by rw [hau, hlen]; exact h.2⟩
  raw_nil _ hlen := ⟨hlen, by rw [hlen]; rfl⟩
  part_raw h := ⟨_, h.1⟩
  fits_mono h hle := hle.trans h
  part_of h hau hlen hfu hfl hact := by
    obtain ⟨⟨h₁, h₂⟩, h₃, h₄, h₅⟩ := h
    exact ⟨⟨hlen.trans h₁, by rw [hau, hlen]; exact h₂⟩, hact.trans h₃, hfl.trans h₄,
      by rw [hfu, hfl]; exact h₅⟩
  room_of := by
    intro s st st' n hroom hau hfu hact
    simp only [bufferedView] at hroom ⊢
    cases hact' : st'.fuActive with
    | false =>
      simp only [Bool.false_eq_true, if_false]
      omega
    | true =>
      rw [hact hact'] at hroom
      simp only [if_true] at hroom ⊢
      omega
  appendBytes p h := buffered_appendBytes h p
  appendNal h hne := buffered_appendNal h hne
  flush h := buffered_flush h
  fuStays := by
    intro s st b seqGap payload h
    show (bufferedView spspps).Stays s st ((fuABuffered spspps s st seqGap payload).1,
      (fuABuffered spspps s st seqGap payload).2.1)
    unfold fuABuffered
    split
    · exact .flags (Keeps.refl st) id h
    · split
      · exact (fuBeginBuffered_stays h payload).trans fun b₁ hb₁ =>
          fuJoinBuffered_stays hb₁ payload
      · exact fuJoinBuffered_stays h payload
  fuSkip := by
    intro s st seqGap payload hskip
    exact if_pos hskip
  fuFirst := fun h hgo hstart hend hfits => buffered_fuFirst h hgo hstart hend hfits
  fuNext := fun h hgo hstart hend hfits hne => buffered_fuNext h hgo hstart hend hfits hne
  fuLast := fun h hgo hstart hend hfits hne => buffered_fuLast h hgo hstart hend hfits hne
  fuOrphan := by
    intro s st payload hgo hact hstart
    show fuABuffered spspps s st false payload = _
    rw [fuABuffered_of_go hgo, hstart, if_neg Bool.false_ne_true, fuJoinBuffered, if_pos (.inl hact),
      if_pos rfl, ← hact]

end Buffered

section Direct

variable {bs : BitstreamMem} (spspps : List UInt8) {d : Decoder} {st : H264RtpState}
  {b : List UInt8}

theorem direct_append (h : Staged bs d st b) (p : List UInt8) :
    (directView bs spspps).Grows d st p false
      ((rtpDirectAppend d st p).1, (rtpDirectAppend d st p).2.1)
      (Staged bs (rtpDirectAppend d st p).1 (rtpDirectAppend d st p).2.1 (b ++ p)) := by
  obtain ⟨d', hcommits, hunread, ⟨heq, hst⟩ | ⟨heq, hst, hfull⟩⟩ := rtpDirectAppend_spec h p
  · rw [heq]
    refine ⟨hcommits, Keeps.refl st, by simp, .inl ⟨rfl, hst, ?_⟩⟩
    intro m hroom
    simp only [directView] at hroom ⊢
    omega
  · rw [heq]
    refine ⟨hcommits, Keeps.refl st, by simp, .inr ⟨rfl, ⟨b, hst⟩, ?_⟩⟩
    intro m hroom
    simp only [directView] at hroom
    omega

theorem direct_appendNal (h : Staged bs d st b) (nal : List UInt8) :
    (directView bs spspps).Grows d st (startCode ++ nal) false
      ((rtpDirectAppendNal d st nal).1, (rtpDirectAppendNal d st nal).2.1)
      (Staged bs (rtpDirectAppendNal d st nal).1 (rtpDirectAppendNal d st nal).2.1
        (b ++ (startCode ++ nal))) := by
  unfold rtpDirectAppendNal
  obtain ⟨d', hcommits, hunread, ⟨heq, hst⟩ | ⟨heq, hst, hfull⟩⟩ :=
    rtpDirectAppend_spec h startCode
  · have hcode := direct_append spspps h startCode
    rw [heq] at hcode ⊢
    exact hcode.trans fun b' hb' => direct_append spspps hb' nal
  · rw [heq]
    refine ⟨hcommits, Keeps.refl st, by simp, .inr ⟨rfl, ⟨b, hst⟩, ?_⟩⟩
    intro m hroom
    simp only [directView, List.length_append] at hroom
    omega

/-- A first fragment: the parameter sets of an IDR slice, then the header behind its start code. -/
theorem fuBeginDirect_grows (h : Staged bs d st b) (payload : List UInt8) :
    (directView bs spspps).Grows d st (pendOf spspps [fuHdr payload] ++ (startCode ++ [fuHdr payload]))
      (decide (fuType payload = 5)) (fuBeginDirect spspps d st payload)
      (Staged bs (fuBeginDirect spspps d st payload).1 (fuBeginDirect spspps d st payload).2
        (b ++ (pendOf spspps [fuHdr payload] ++ (startCode ++ [fuHdr payload])))) := by
  generalize hst₁ : (if nalType [fuHdr payload] = 5 then { st with auHasIdr := true }
    else st) = st₁
  generalize hr : (if nalType [fuHdr payload] = 5 ∧ 0 < spspps.length then
    ((rtpDirectAppend d st₁ spspps).1, (rtpDirectAppend d st₁ spspps).2.1) else (d, st₁)) = r
  have hpend : (directView bs spspps).Grows d st (pendOf spspps [fuHdr payload])
      (decide (nalType [fuHdr payload] = 5)) r
      (Staged bs r.1 r.2 (b ++ pendOf spspps [fuHdr payload])) :=
    .pend h (h.setFlags rfl) (fun _ => id)
      (fun d st => ((rtpDirectAppend d st spspps).1, (rtpDirectAppend d st spspps).2.1))
      (fun st₁ b₁ hb₁ => direct_append spspps hb₁ spspps) hst₁.symm hr.symm
  have hall := hpend.trans fun b' hb' => direct_appendNal spspps hb' [fuHdr payload]
  rw [Bool.or_false, nalType_fuHdr] at hall
  have hresult : fuBeginDirect spspps d st payload =
      ((rtpDirectAppendNal r.1 r.2 [fuHdr payload]).1,
        { (rtpDirectAppendNal r.1 r.2 [fuHdr payload]).2.1 with fuActive := true }) := by
    rw [nalType_fuHdr] at hst₁ hr
    rw [← hr]
    simp only [fuBeginDirect, hst₁]
  rw [hresult]
  obtain ⟨hem, hk, hidr, ⟨hb, hst, hroom⟩ | ⟨hb, ⟨b', hst⟩, hfull⟩⟩ := hall
  · exact ⟨hem, hk, hidr, .inl ⟨hb, hst.setFlags rfl, hroom⟩⟩
  · exact ⟨hem, hk, hidr, .inr ⟨hb, ⟨b', hst.setFlags rfl⟩, hfull⟩⟩

theorem fuBeginDirect_active (payload : List UInt8) :
    (fuBeginDirect spspps d st payload).2.fuActive = true := rfl

theorem fuADirect_of_go {payload : List UInt8}
    (hgo : ¬ (st.needIdr = true ∧ fuType payload ≠ 5)) :
    fuADirect spspps d st false payload =
      ((fuJoinDirect
          (if fuStart payload then fuBeginDirect spspps d st payload else (d, st)).1
          (if fuStart payload then fuBeginDirect spspps d st payload else (d, st)).2 payload).1,
        (fuJoinDirect
          (if fuStart payload then fuBeginDirect spspps d st payload else (d, st)).1
          (if fuStart payload then fuBeginDirect spspps d st payload else (d, st)).2 payload).2,
        true) := by
  have hskip : ¬ (false = true ∨ st.needIdr = true ∧ fuType payload ≠ 5) := by simpa using hgo
  rw [fuADirect, if_neg hskip]

/-- A fragment joined to the NAL unit in progress. -/
theorem fuJoinDirect_grows (payload : List UInt8) (h : Staged bs d st b)
    (hact : st.fuActive = true) :
    (directView bs spspps).Grows d st (payload.drop 2) false (fuJoinDirect d st payload)
      (Staged bs (fuJoinDirect d st payload).1 (fuJoinDirect d st payload).2
          (b ++ payload.drop 2) ∧
        (fuJoinDirect d st payload).2.fuActive = !fuEnd payload) := by
  have hopen : ¬ st.fuActive = false := by simp [hact]
  obtain ⟨d', hcommits, hunread, ⟨heq, hst⟩ | ⟨heq, hst, hfull⟩⟩ :=
    rtpDirectAppend_spec h (payload.drop 2)
  · have hjoin : fuJoinDirect d st payload = (d', { st with
        auLen := st.auLen + (payload.drop 2).length, fuActive := !fuEnd payload }) := by
      rw [fuJoinDirect, if_neg hopen, heq]
      cases fuEnd payload with
      | true => rfl
      | false => simp [hact]
    rw [hjoin]
    refine ⟨hcommits, Keeps.refl st, by simp, .inl ⟨rfl, ⟨hst.setFlags rfl, rfl⟩, ?_⟩⟩
    intro m hroom
    simp only [directView] at hroom ⊢
    omega
  · have hjoin : fuJoinDirect d st payload =
        (d', { st with auBad := true, fuActive := !fuEnd payload }) := by
      rw [fuJoinDirect, if_neg hopen, heq]
      cases fuEnd payload with
      | true => rfl
      | false => simp [hact]
    rw [hjoin]
    refine ⟨hcommits, Keeps.refl st, by simp, .inr ⟨rfl, ⟨b, hst.setFlags rfl⟩, ?_⟩⟩
    intro m hroom
    simp only [directView] at hroom
    omega

theorem fuJoinDirect_stays (h : Staged bs d st b) (payload : List UInt8) :
    (directView bs spspps).Stays d st (fuJoinDirect d st payload) := by
  cases hact : st.fuActive with
  | false =>
    rw [fuJoinDirect, if_pos hact]
    exact .flags (Keeps.refl st) (fun _ => rfl) (h.setFlags rfl)
  | true => exact ((fuJoinDirect_grows spspps payload h hact).mono And.left).stays

theorem fuJoinDirect_active (payload : List UInt8) (h : ∃ b, Staged bs d st b)
    (hact : st.fuActive = true) : (fuJoinDirect d st payload).2.fuActive = !fuEnd payload := by
  obtain ⟨b, hb⟩ := h
  have hopen : ¬ st.fuActive = false := by simp [hact]
  obtain ⟨d', -, -, ⟨heq, -⟩ | ⟨heq, -, -⟩⟩ := rtpDirectAppend_spec hb (payload.drop 2) <;>
    rw [fuJoinDirect, if_neg hopen, heq] <;> cases fuEnd payload <;> simp [hact]

theorem direct_part_append {q r : List UInt8} (hne : q ≠ []) :
    b ++ (pendOf spspps q ++ startCode ++ q) ++ r =
      b ++ (pendOf spspps (q ++ r) ++ startCode ++ (q ++ r)) := by
  rw [pendOf_append hne]
  simp only [List.append_assoc]

/-- The direct store marks the unit bad on a fragment whose first one is missing. -/
theorem directLaw (bs : BitstreamMem) (spspps : List UInt8) :
    StoreLaw directStore spspps false (directView bs spspps) where
  raw_len h := h.auLen_eq
  raw_of h _ hlen := h.setFlags hlen
  raw_nil h hlen := h.reset hlen
  part_raw h := ⟨_, h.1⟩
  fits_mono _ _ := trivial
  part_of h _ hlen _ _ hact := ⟨h.1.setFlags hlen, hact.trans h.2⟩
  room_of := by
    intro s st st' n hroom hau _ _
    simp only [directView] at hroom ⊢
    omega
  appendBytes p h := direct_append spspps h p
  appendNal h _ := direct_appendNal spspps h _
  flush := by
    intro d st b h
    obtain ⟨d', heq, hst, hcommits⟩ := rtpDirectFlush_spec h
    have hresult : directStore.flush d st = _ := heq
    rw [hresult]
    exact ⟨rfl, hst, hcommits⟩
  fuStays := by
    intro d st b seqGap payload h
    -- What the filter skips changes nothing; the rest is begun, where it is a start, and joined.
    by_cases hskip : seqGap = true ∨ st.needIdr = true ∧ fuType payload ≠ 5
    · have hresult : directStore.fuA spspps d st seqGap payload = (d, st, true) := if_pos hskip
      rw [hresult]
      exact .flags (Keeps.refl st) id h
    · rw [not_or, Bool.not_eq_true] at hskip
      rw [hskip.1]
      have hresult : directStore.fuA spspps d st false payload = _ := fuADirect_of_go spspps hskip.2
      rw [hresult]
      split
      · exact (fuBeginDirect_grows spspps h payload).stays.trans fun b₁ hb₁ =>
          fuJoinDirect_stays spspps hb₁ payload
      · exact fuJoinDirect_stays spspps h payload
  fuSkip := by
    intro s st seqGap payload hskip
    exact if_pos hskip
  fuFirst := by
    intro d st b payload h hgo hstart hend _
    -- A first fragment is begun, with the sets and the start code, and then joined.
    have hassoc : pendOf spspps [fuHdr payload] ++ startCode ++ fuHdr payload :: payload.drop 2 =
        pendOf spspps [fuHdr payload] ++ (startCode ++ [fuHdr payload]) ++ payload.drop 2 := by
      simp
    have hbegin := fuBeginDirect_grows spspps h payload
    have hall := hbegin.trans fun b' hb' =>
      (fuJoinDirect_grows spspps payload hb'
        (fuBeginDirect_active spspps payload)).mono And.left
    rw [← hassoc, Bool.or_false] at hall
    have hact : (fuJoinDirect (fuBeginDirect spspps d st payload).1
        (fuBeginDirect spspps d st payload).2 payload).2.fuActive = true := by
      obtain ⟨-, -, -, hst⟩ := hbegin.stays
      rw [fuJoinDirect_active payload hst (fuBeginDirect_active spspps payload), hend, Bool.not_false]
    have hresult : directStore.fuA spspps d st false payload = _ := fuADirect_of_go spspps hgo
    rw [hresult, hstart, if_pos rfl]
    exact ⟨rfl, hall.mono fun hst => ⟨hst, hact⟩⟩
  fuNext := by
    intro d st b q payload h hgo hstart hend _ hne
    have hresult : directStore.fuA spspps d st false payload = _ := fuADirect_of_go spspps hgo
    rw [hresult, hstart, if_neg Bool.false_ne_true]
    refine ⟨rfl, (fuJoinDirect_grows spspps payload h.1 h.2).mono ?_⟩
    rintro ⟨hst, hact⟩
    rw [direct_part_append spspps hne] at hst
    exact ⟨hst, by simpa [hend] using hact⟩
  fuLast := by
    intro d st b q payload h hgo hstart hend _ hne
    have hresult : directStore.fuA spspps d st false payload = _ := fuADirect_of_go spspps hgo
    rw [hresult, hstart, if_neg Bool.false_ne_true]
    refine ⟨rfl, (fuJoinDirect_grows spspps payload h.1 h.2).mono ?_⟩
    rintro ⟨hst, -⟩
    rwa [direct_part_append spspps hne, pendOf_append hne] at hst
  fuOrphan := by
    intro d st payload hgo hact hstart
    show fuADirect spspps d st false payload = _
    rw [fuADirect_of_go spspps hgo, hstart, if_neg Bool.false_ne_true, fuJoinDirect, if_pos hact]
    rfl

end Direct

end Stream
end ToonVpu
