import ToonVpu.Stream.H264Groups

/-!
# H264Outcome — what can come of one H.264 access unit

From the end of one unit to the end of the next, whichever packets are lost in between, there are
four cases (`UnitOutcome`): nothing of the unit arrives; the unit is broken and nothing is emitted;
an append failed and nothing is emitted; or exactly an end of the unit arrives and what is kept of
it is emitted.  Both analyses of the H.264 handlers start from this case split.
-/

namespace ToonVpu
namespace Stream

open Foundation
open Lib

/-! ## Lost packets -/

section Losses

variable {α : Type*} {S : AuStore α} {spspps : List UInt8} {silent : Bool} {V : StoreView α}
  {l : Link α} {a : AccessUnit}

theorem run_gone (handle : Handler α) (marked : Bool) {ps : List Packet}
    (hgone : ∀ p ∈ ps, p.arrives = false) :
    ∀ l : Link α, l.run handle (wireMarked a marked ps) = l.skip ps.length := by
  induction ps with
  | nil =>
    intro l
    simp [wireMarked, Link.skip]
  | cons p ps ih =>
    intro l
    have hp : p.arrives = false := hgone p List.mem_cons_self
    rw [wireMarked, Link.run_cons, Link.send_of_lost hp,
      ih (fun q hq => hgone q (List.mem_cons_of_mem p hq)), Link.skip_succ, List.length_cons]

theorem SeqInv.skip (h : l.SeqInv) (n : ℕ) : (l.skip n).SeqInv := by
  refine ⟨by simpa [Link.skip] using h.haveSeq, ?_⟩
  intro m hm
  simp only [Link.skip, Option.mem_def, Option.map_eq_some_iff] at hm ⊢
  obtain ⟨k, hk, rfl⟩ := hm
  have hlast := h.lastSeq k hk
  omega

theorem Boundary.skip (h : Boundary V l) {n : ℕ} (hn : n ≠ 0) : Boundary V (l.skip n) := by
  obtain ⟨b, hraw, -⟩ := h.raw
  refine ⟨SeqInv.skip h.seq n, ⟨b, hraw, ?_⟩, by simpa [Link.skip] using h.haveTs, ?_⟩
  · intro hzero
    obtain ⟨k, -, hk⟩ := Option.map_eq_some_iff.1 hzero
    omega
  · intro hnone
    exact h.fresh (Option.map_eq_none_iff.1 hnone)

theorem Waits.skip (h : Waits l) (n : ℕ) : Waits (l.skip n) := by
  rcases h with hneed | ⟨k, hk⟩
  · exact .inl hneed
  · exact .inr ⟨k + n, by simp only [Link.skip, hk, Option.map_some, Option.some.injEq]; omega⟩

theorem lostAfter_gone {marked : Bool} {ps : List Packet} (hgone : ∀ p ∈ ps, p.arrives = false)
    (lost : Option ℕ) : lostAfter lost (wireMarked a marked ps) = lost.map (· + ps.length) := by
  induction ps generalizing lost with
  | nil => simp [wireMarked, lostAfter]
  | cons p ps ih =>
    have hp : p.arrives = false := hgone p List.mem_cons_self
    have hrest := ih (fun q hq => hgone q (List.mem_cons_of_mem p hq)) (lost.map (· + 1))
    simp only [wireMarked, lostAfter, List.foldl_cons, hp, Bool.false_eq_true, if_false] at hrest ⊢
    rw [hrest, Option.map_map]
    congr 1
    funext k
    simp only [Function.comp_apply, List.length_cons]
    omega

/-- The first packet of some kind, if there is one. -/
theorem first_packet (f : Packet → Bool) (ps : List Packet) :
    (∀ p ∈ ps, f p = false) ∨
      ∃ pre p post, ps = pre ++ p :: post ∧ (∀ q ∈ pre, f q = false) ∧ f p = true := by
  cases hfind : ps.find? f with
  | none =>
    left
    intro p hp
    simpa using List.find?_eq_none.1 hfind p hp
  | some p =>
    obtain ⟨hp, pre, post, hsplit, hpre⟩ := List.find?_eq_some_iff_append.1 hfind
    exact .inr ⟨pre, p, post, hsplit, fun q hq => by simpa using hpre q hq, hp⟩

/-- Packets in the middle of a unit, all of which arrive. -/
theorem run_stays (law : StoreLaw S spspps silent V) {ps : List Packet}
    (harr : ∀ p ∈ ps, p.arrives = true) (hne : ∀ p ∈ ps, p.payload ≠ []) :
    ∀ {l : Link α}, ps ≠ [] → l.SeqInv → (∃ b, V.Raw l.out (l.entered a) b) →
      ∃ l', l.run (h264Handler S spspps) (wireMarked a false ps) = l' ∧ Inside l' a ∧
        V.emitted l'.out = V.emitted l.out ∧ ∃ b, V.Raw l'.out l'.st b := by
  induction ps with
  | nil =>
    intro l hps
    exact absurd rfl hps
  | cons p ps ih =>
    intro l _ hseq hraw
    obtain ⟨b, hb⟩ := hraw
    obtain ⟨l₁, hsend, hin, hem, -, -, b₁, hb₁⟩ := send_stays law hseq hb
      (harr p List.mem_cons_self) (hne p List.mem_cons_self)
    rw [wireMarked, Bool.false_and, Link.run_cons, hsend]
    by_cases hps : ps = []
    · subst hps
      exact ⟨l₁, rfl, hin, hem, b₁, hb₁⟩
    · obtain ⟨l', hrun, hin', hem', hraw'⟩ := ih (fun q hq => harr q (List.mem_cons_of_mem p hq))
        (fun q hq => hne q (List.mem_cons_of_mem p hq)) hps hin.seq ⟨b₁, hin.raw law hb₁⟩
      exact ⟨l', hrun, hin', hem'.trans hem, hraw'⟩

end Losses

/-! ## The first packet of a unit that arrives -/

section Enter

variable {α : Type*} {S : AuStore α} {spspps : List UInt8} {silent : Bool} {V : StoreView α}
  {l : Link α} {a : AccessUnit} {n : ℕ}

/-- What the prologue leaves after the end of a unit and some losses. -/
structure Entered (V : StoreView α) (l : Link α) (n : ℕ) (e : H264RtpState) : Prop where
  state : (e.auBad = true ∧ ∃ b, V.Raw l.out e b) ∨ (e.auBad = false ∧ V.Raw l.out e [])
  gap : (l.skip n).gap = true → e.needIdr = true ∧ e.fuActive = false
  fresh : l.lost = none → e.needIdr = false ∧ e.fuActive = false ∧ (l.skip n).gap = false
  waits : Waits l → e.needIdr = true
  bad : e.auBad = true → (l.st.auBad = true → Waits l) → e.needIdr = true

/-- With something delivered before, losses show. -/
theorem gap_skip (hvis : ∀ m ∈ (l.skip n).lost, m % 65536 = 0 → m = 0) {k : ℕ}
    (hlost : l.lost = some k) (hpos : k + n ≠ 0) : (l.skip n).gap = true := by
  have hskip : (l.skip n).lost = some (k + n) := by simp [Link.skip, hlost]
  unfold Link.gap gapSeen
  rw [hskip]
  simp only [ne_eq, decide_eq_true_eq]
  intro hmod
  exact hpos (hvis (k + n) hskip hmod)

theorem Boundary.entered (law : StoreLaw S spspps silent V) (h : Boundary V l)
    (hvis : ∀ m ∈ (l.skip n).lost, m % 65536 = 0 → m = 0) :
    Entered V l n ((l.skip n).entered a) := by
  obtain ⟨b, hraw, hzero⟩ := h.raw
  have hgapEq : ∀ k, l.lost = some k → k + n ≠ 0 → (l.skip n).gap = true := fun k hk hpos =>
    gap_skip hvis hk hpos
  have hwaits : Waits l → (l.skip n).checked.needIdr = true := by
    rintro (hneed | ⟨k, hk⟩)
    · simp [Link.checked, Link.skip, hneed]
    · have hgap := hgapEq (k + 1) hk (by omega)
      simp [Link.checked, hgap]
  have hclosed : l.lost = none → (l.skip n).gap = false := by
    intro hnone
    simp [Link.gap, gapSeen, Link.skip, hnone]
  rcases (l.skip n).entered_cases a with ⟨hopen, -, heq⟩ | ⟨hopen, -, hpos, heq⟩ | ⟨hnew, heq⟩
  · -- The same timestamp: the unit is empty, bad, or the gap marks it bad.
    have hopen' : l.st.auHaveTs = true := hopen
    obtain ⟨k, hk⟩ : ∃ k, l.lost = some k :=
      Option.isSome_iff_exists.1 (h.haveTs.symm.trans hopen')
    rw [heq]
    refine ⟨?_, ?_, ?_, hwaits, ?_⟩
    · cases hbad : ((l.skip n).st.auBad || (l.skip n).gap) with
      | true => exact .inl ⟨rfl, b, law.raw_of hraw rfl rfl⟩
      | false =>
        rw [Bool.or_eq_false_iff] at hbad
        have hzero' : l.lost = some 0 := by
          by_cases hpos : k + n = 0
          · rw [hk]
            simp only [Option.some.injEq]
            omega
          · exact absurd (hbad.2.symm.trans (hgapEq k hk hpos)) Bool.false_ne_true
        rcases hzero hzero' with hnil | hb
        · rw [hnil] at hraw
          exact .inr ⟨rfl, law.raw_of hraw rfl rfl⟩
        · exact absurd (hbad.1.symm.trans hb) Bool.false_ne_true
    · intro hgap
      simp [Link.checked, hgap]
    · intro hnone
      rw [hnone] at hk
      exact absurd hk.symm (Option.some_ne_none k)
    · intro hbad hw
      rcases Bool.or_eq_true_iff.1 hbad with hb | hgap
      · exact hwaits (hw hb)
      · simp [Link.checked, hgap]
  · -- A unit is unfinished: it is discarded.
    have hopen' : l.st.auHaveTs = true := hopen
    rw [heq]
    refine ⟨.inr ⟨rfl, law.raw_nil hraw rfl⟩, ?_, ?_, fun _ => rfl, fun _ _ => rfl⟩
    · intro hgap
      simp [rtpAuReset, Link.checked, hgap]
    · intro hnone
      have hsome := h.haveTs
      rw [hopen', hnone] at hsome
      exact absurd hsome (by simp)
  · -- Nothing is open; the flags stay as they were left.
    have hnil : l.st.auLen = 0 := by
      rcases hnew with hfirst | ⟨-, hnil⟩
      · have hsome := h.haveTs
        have hfirst' : l.st.auHaveTs = false := hfirst
        rw [hfirst', eq_comm, Option.isSome_eq_false_iff, Option.isNone_iff_eq_none] at hsome
        exact (h.fresh hsome).1
      · exact hnil
    have hraw' : V.Raw l.out
        { (l.skip n).checked with auHaveTs := true, auTs := a.ts.toNat } [] :=
      law.raw_nil hraw hnil
    rw [heq]
    refine ⟨?_, ?_, ?_, hwaits, ?_⟩
    · cases hbad : l.st.auBad with
      | true => exact .inl ⟨hbad, _, hraw'⟩
      | false => exact .inr ⟨hbad, hraw'⟩
    · intro hgap
      simp [Link.checked, hgap]
    · intro hnone
      obtain ⟨-, -, -, hact, hneed⟩ := h.fresh hnone
      have hgap := hclosed hnone
      refine ⟨?_, ?_, hgap⟩
      · show (l.st.needIdr || (l.skip n).gap) = false
        rw [hneed, hgap]
        rfl
      · show (l.st.fuActive && !(l.skip n).gap) = false
        rw [hact]
        rfl
    · intro hbad hw
      exact hwaits (hw hbad)

end Enter

/-! ## The four cases -/

/-- If nothing was delivered before, the first delivery is the first packet of its unit. -/
def StartsWhole (lost : Option ℕ) (u : H264Unit) : Prop :=
  lost = none → ∀ p ps, groupPackets u.groups = p :: ps → p.arrives = false →
    ∀ q ∈ ps, q.arrives = false

/-- The groups that arrive at the end of a unit: `before` is lost, and of `g` the packets `gone`
are, while the others, `arr`, arrive with all of `after`. -/
structure Tail (u : H264Unit) (before : List Group) (g : Group) (after : List Group)
    (gone arr : List Packet) : Prop where
  groups : u.groups = before ++ g :: after
  packets : g.packets = gone ++ arr
  nonempty : arr ≠ []
  lost : ∀ p ∈ groupPackets before ++ gone, p.arrives = false
  arrives : ∀ p ∈ arr ++ groupPackets after, p.arrives = true

/-- How many packets of the unit are lost. -/
def lostCount (before : List Group) (gone : List Packet) : ℕ :=
  (groupPackets before ++ gone).length

/-- What becomes of the group in which the tail starts: it is taken, or it is an FU-A group whose
first fragment is missing (or carries the gap) and is passed over. -/
def TailKept (silent gap need : Bool) (g : Group) (after : List Group) (gone arr : List Packet)
    (kept : List Nal) : Prop :=
  (gone = [] ∧ kept = groupKept need (g :: after)) ∨
    (g.isFuA = true ∧ (gap = true ∨ gone ≠ []) ∧ kept = groupKept need after ∧
      (silent = true ∨ (need = true ∧ ∀ n ∈ g.nals, n.isIdr = false) ∨
        (gap = true ∧ arr.length = 1)))

/-- What can come of an access unit. -/
inductive UnitOutcome {α : Type*} (V : StoreView α) (S : AuStore α) (spspps : List UInt8)
    (silent : Bool) (l : Link α) (u : H264Unit) (l' : Link α) : Prop
  /-- No packet arrives. -/
  | gone (hgone : ∀ p ∈ groupPackets u.groups, p.arrives = false)
      (heq : l' = l.skip (groupPackets u.groups).length)
  /-- A packet is missing behind one that arrived, or the unit is bad from its start. -/
  | broken (hem : V.emitted l'.out = V.emitted l.out) (hbd : Boundary V l') (hlost : l'.lost ≠ none)
      (hflag : FlagClean l')
      (hwaits : (l.st.auBad = true → Waits l) → StartsWhole l.lost u → Waits l')
  /-- There was no room for a packet. -/
  | overflowed (hem : V.emitted l'.out = V.emitted l.out) (hbd : Boundary V l')
      (hroom : ¬ Roomy V S spspps l u.accessUnit.wire)
  /-- Exactly an end of the unit arrives. -/
  | tail (before : List Group) (g : Group) (after : List Group) (gone arr : List Packet)
      (kept : List Nal) (htail : Tail u before g after gone arr)
      (hvis : ∀ m ∈ (l.skip (lostCount before gone)).lost, m % 65536 = 0 → m = 0)
      (hentered : Entered V l (lostCount before gone)
        ((l.skip (lostCount before gone)).entered u.accessUnit))
      (hclean : ((l.skip (lostCount before gone)).entered u.accessUnit).auBad = false)
      (hkept : TailKept silent (l.skip (lostCount before gone)).gap
        ((l.skip (lostCount before gone)).entered u.accessUnit).needIdr g after gone arr kept)
      (hended : Ended V spspps l.out ((l.skip (lostCount before gone)).entered u.accessUnit)
        kept l')

section Tail

variable {α : Type*} {S : AuStore α} {spspps : List UInt8} {silent : Bool} {V : StoreView α}
  {l : Link α} {a : AccessUnit}

/-- A list of packets cut at one of them, in terms of groups. -/
theorem groupPackets_split {gs : List Group} {gone : List Packet} {p : Packet}
    {rest : List Packet} (h : groupPackets gs = gone ++ p :: rest) :
    ∃ before g after gone' arr, gs = before ++ g :: after ∧ g.packets = gone' ++ p :: arr ∧
      gone = groupPackets before ++ gone' ∧ rest = arr ++ groupPackets after := by
  induction gs generalizing gone with
  | nil => simp [groupPackets] at h
  | cons g gs ih =>
    rw [groupPackets_cons, List.append_eq_append_iff] at h
    rcases h with ⟨cs, hgone, hrest⟩ | ⟨cs, hg, hrest⟩
    · -- The cut is behind this group.
      obtain ⟨before, g', after, gone', arr, rfl, hp, rfl, rfl⟩ := ih hrest
      refine ⟨g :: before, g', after, gone', arr, rfl, hp, ?_, rfl⟩
      rw [hgone, groupPackets_cons, List.append_assoc]
    · cases cs with
      | nil =>
        rw [List.append_nil] at hg
        rw [List.nil_append] at hrest
        have hcut : groupPackets gs = [] ++ p :: rest := hrest.symm
        obtain ⟨before, g', after, gone', arr, rfl, hp, hgone', rfl⟩ := ih hcut
        refine ⟨g :: before, g', after, gone', arr, rfl, hp, ?_, rfl⟩
        rw [groupPackets_cons, List.append_assoc, ← hgone', List.append_nil, hg]
      | cons c cs =>
        -- The cut is inside this group.
        rw [List.cons_append, List.cons.injEq] at hrest
        obtain ⟨rfl, rfl⟩ := hrest
        exact ⟨[], g, gs, gone, cs, rfl, hg, rfl, rfl⟩

/-- The packets of a fragmented NAL unit cut at one of them. -/
theorem fuA_split {header : UInt8} {type_mem} {first last : Fragment} {mids : List Fragment}
    {gone : List Packet} {p : Packet} {arr : List Packet}
    (h : (Group.fuA header type_mem first mids last).packets = gone ++ p :: arr) :
    (∃ (f : Fragment) (start stop : Bool), p = f.packet header start stop ∧
        (start = true → gone = [])) ∧
      ∀ q ∈ arr, ∃ (f : Fragment) (stop : Bool), q = f.packet header false stop := by
  have htail : ∀ q ∈ Group.tailPackets header mids last, ∃ (f : Fragment) (stop : Bool),
      q = f.packet header false stop := by
    intro q hq
    simp only [Group.tailPackets, List.mem_append, List.mem_map, List.mem_singleton] at hq
    rcases hq with ⟨f, -, rfl⟩ | rfl
    · exact ⟨f, false, rfl⟩
    · exact ⟨last, true, rfl⟩
  cases gone with
  | nil =>
    rw [Group.packets, List.nil_append, List.cons.injEq] at h
    obtain ⟨rfl, rfl⟩ := h
    exact ⟨⟨first, true, false, rfl, fun _ => rfl⟩, htail⟩
  | cons c gone =>
    rw [Group.packets, List.cons_append, List.cons.injEq] at h
    obtain ⟨-, hsplit⟩ := h
    rw [hsplit] at htail
    obtain ⟨f, stop, rfl⟩ := htail p (by simp)
    exact ⟨⟨f, false, stop, rfl, fun hs => absurd hs (by simp)⟩,
      fun q hq => htail q (by simp [hq])⟩

/-- Groups that arrive whole, up to the end of the unit. -/
theorem run_taken (law : StoreLaw S spspps silent V) {g : Group} {after : List Group}
    (hseq : l.SeqInv) (hclean : (l.entered a).auBad = false)
    (hraw : V.Raw l.out (l.entered a) [])
    (harr : ∀ p ∈ groupPackets (g :: after), p.arrives = true)
    (hgap : g.isFuA = true → l.gap = false) (hfits : ∀ x ∈ g :: after, x.Fits V) :
    (∃ l', l.run (h264Handler S spspps) (wireMarked a true (groupPackets (g :: after))) = l' ∧
        Ended V spspps l.out (l.entered a) (groupKept (l.entered a).needIdr (g :: after)) l') ∨
      Overflowed V S spspps l (wireMarked a true (groupPackets (g :: after))) := by
  rcases run_groups law after g hseq hclean hraw harr hgap hfits with
    ⟨l₁, hrun, htook, hraw'⟩ | hover
  · rw [List.nil_append] at hraw'
    exact .inl ⟨_, hrun, htook.finish law hraw'⟩
  · exact .inr hover

theorem Ended.of_took {s : α} {st : H264RtpState} {l₁ l' : Link α} {kept : List Nal}
    (h : Took V s st a false l₁) (h' : Ended V spspps l₁.out l₁.st kept l') :
    Ended V spspps s st kept l' := by
  have hidr : l₁.st.auHasIdr = st.auHasIdr := by simpa using h.hasIdr
  obtain ⟨hem, hbd, hlost, hbad, hneed, hflag⟩ := h'
  rw [h.emitted] at hem
  rw [h.need, hidr] at hneed
  rw [hidr] at hflag
  exact ⟨hem, hbd, hlost, hbad, hneed, hflag⟩

theorem Ended.of_inside {kept : List Nal} {l' : Link α} (hin : Inside l a)
    (h : Ended V spspps l.out (l.entered a) kept l') : Ended V spspps l.out l.st kept l' := by
  rw [hin.entered] at h
  exact ⟨h.emitted, h.boundary, h.lost, h.bad, h.need, h.hasIdr⟩

/-- An FU-A group that is passed over, and the groups behind it. -/
theorem run_passed (law : StoreLaw S spspps silent V) {ps : List Packet} {after : List Group}
    (h : PassedOver V S spspps l a ps (groupPackets after).isEmpty)
    (harr : ∀ p ∈ groupPackets after, p.arrives = true) (hfits : ∀ x ∈ after, x.Fits V) :
    (∃ l', l.run (h264Handler S spspps) (wireMarked a true (ps ++ groupPackets after)) = l' ∧
        Ended V spspps l.out (l.entered a) (groupKept (l.entered a).needIdr after) l') ∨
      Overflowed V S spspps l (wireMarked a true (ps ++ groupPackets after)) := by
  obtain ⟨l₁, hrun, hmid, hend⟩ := h
  rw [wireMarked_append, Bool.true_and]
  cases after with
  | nil =>
    have hended := hend rfl
    refine .inl ⟨l₁, ?_, hended⟩
    rw [Link.run_append, hrun]
    rfl
  | cons g after =>
    obtain ⟨htook, hraw⟩ := hmid (by rw [isEmpty_groupPackets]; rfl)
    have hin := htook.inside
    have hneed : (l₁.entered a).needIdr = (l.entered a).needIdr := by
      rw [hin.entered]
      exact htook.need
    rcases run_taken law hin.seq (by rw [hin.entered]; exact htook.bad) (hin.raw law hraw) harr
      (fun _ => hin.gap) hfits with ⟨l', hrun', hended⟩ | hover
    · rw [hneed] at hended
      refine .inl ⟨l', ?_, .of_took htook (hended.of_inside hin)⟩
      rw [Link.run_append, hrun]
      exact hrun'
    · exact .inr (.of_append (by rw [hrun]; exact htook.emitted) (by rw [hrun]; exact hover))

/-- The end of a unit from its first packet that arrives on. -/
theorem run_tail (law : StoreLaw S spspps silent V) {g : Group} {after : List Group}
    {gone : List Packet} {p : Packet} {arr : List Packet} (hseq : l.SeqInv)
    (hclean : (l.entered a).auBad = false) (hraw : V.Raw l.out (l.entered a) [])
    (hact : l.gap = true ∨ gone ≠ [] → (l.entered a).fuActive = false)
    (hpackets : g.packets = gone ++ p :: arr)
    (harr : ∀ q ∈ p :: arr ++ groupPackets after, q.arrives = true)
    (hfits : ∀ x ∈ g :: after, x.Fits V) :
    (∃ kept l', l.run (h264Handler S spspps)
          (wireMarked a true (p :: arr ++ groupPackets after)) = l' ∧
        TailKept silent l.gap (l.entered a).needIdr g after gone (p :: arr) kept ∧
        Ended V spspps l.out (l.entered a) kept l') ∨
      Overflowed V S spspps l (wireMarked a true (p :: arr ++ groupPackets after)) ∨
      ((l.gap = true ∨ gone ≠ []) ∧
        Spoiled V S spspps l a (wireMarked a true (p :: arr ++ groupPackets after))) := by
  by_cases htaken : gone = [] ∧ (g.isFuA = true → l.gap = false)
  · obtain ⟨rfl, hgap⟩ := htaken
    rw [List.nil_append] at hpackets
    rw [← hpackets, ← groupPackets_cons] at harr ⊢
    rcases run_taken law hseq hclean hraw harr hgap hfits with ⟨l', hrun, hended⟩ | hover
    · exact .inl ⟨_, l', hrun, .inl ⟨rfl, rfl⟩, hended⟩
    · exact .inr (.inl hover)
  · have hlost : l.gap = true ∨ gone ≠ [] := by
      by_cases hgone : gone = []
      · left
        by_contra hgap
        exact htaken ⟨hgone, fun _ => by simpa using hgap⟩
      · exact .inr hgone
    have hafter : ∀ q ∈ groupPackets after, q.arrives = true := fun q hq =>
      harr q (List.mem_append_right _ hq)
    -- The other forms have one packet only.
    have hone : ∀ p', g.packets = [p'] → g.isFuA = false → False := by
      intro p' hp' hfu
      refine htaken ⟨?_, fun hfu' => absurd (hfu.symm.trans hfu') Bool.false_ne_true⟩
      rw [hp'] at hpackets
      cases gone with
      | nil => rfl
      | cons c gone => simp at hpackets
    cases g with
    | single e nal => exact (hone _ rfl rfl).elim
    | stapA e top nals short => exact (hone _ rfl rfl).elim
    | fuA header type_mem first mids last =>
      obtain ⟨⟨f, start, stop, rfl, hstart⟩, hfrag⟩ := fuA_split hpackets
      have hgapStart : start = true → l.gap = true := by
        intro hs
        rcases hlost with hgap | hgone
        · exact hgap
        · exact absurd (hstart hs) hgone
      rcases run_headless law hseq hclean hraw (hact hlost) hgapStart
        (harr (f.packet header start stop) (by simp))
        (fun q hq => ⟨harr q (by simp [hq]), hfrag q hq⟩) hafter payload_of_mem_groupPackets with
        ⟨hpassed, hreason⟩ | ⟨-, -, hspoiled⟩
      · rcases run_passed law hpassed hafter (fun x hx => hfits x (List.mem_cons_of_mem _ hx)) with
          ⟨l', hrun, hended⟩ | hover
        · refine .inl ⟨_, l', hrun, .inr ⟨rfl, hlost, rfl, ?_⟩, hended⟩
          rcases hreason with hsilent | ⟨hneed, htype⟩ | ⟨hgap, hnil⟩
          · exact .inl hsilent
          · refine .inr (.inl ⟨hneed, ?_⟩)
            intro n hn
            obtain rfl := List.mem_singleton.1 hn
            exact decide_eq_false htype
          · exact .inr (.inr ⟨hgap, by simp [hnil]⟩)
        · exact .inr (.inl hover)
      · exact .inr (.inr ⟨hlost, hspoiled⟩)

end Tail

section Unit

variable {α : Type*} {S : AuStore α} {spspps : List UInt8} {silent : Bool} {V : StoreView α}
  {l : Link α}

/-- A unit in which a packet is lost behind one that arrived. -/
theorem run_broken (law : StoreLaw S spspps silent V) {a : AccessUnit} {p q : Packet}
    {arr rest : List Packet} (hseq : l.SeqInv) (hraw : ∃ b, V.Raw l.out (l.entered a) b)
    (hne : ∀ x ∈ p :: arr ++ q :: rest, x.payload ≠ [])
    (harr : ∀ x ∈ p :: arr, x.arrives = true) (hq : q.arrives = false)
    (hvis : GapsVisible l.lost (wireMarked a true (p :: arr ++ q :: rest))) :
    ∃ l', l.run (h264Handler S spspps) (wireMarked a true (p :: arr ++ q :: rest)) = l' ∧
      V.emitted l'.out = V.emitted l.out ∧ Boundary V l' ∧ l'.lost ≠ none ∧ FlagClean l' ∧
      Waits l' := by
  have hsplit : wireMarked a true (p :: arr ++ q :: rest) =
      wireMarked a false (p :: arr) ++ ⟨a, q, rest.isEmpty⟩ :: wireMarked a true rest := by
    rw [wireMarked_append]
    rfl
  obtain ⟨l₁, hrun, hin, hem, b, hb⟩ := run_stays law harr
    (fun x hx => hne x (List.mem_append_left _ hx)) (List.cons_ne_nil p arr) hseq hraw
  have hvis' := hvis
  rw [hsplit] at hvis'
  obtain ⟨-, -, hvis₂⟩ := hvis'.append
  rw [hsplit, Link.run_append, hrun, Link.run_cons,
    Link.send_of_lost (w := ⟨a, q, rest.isEmpty⟩) hq]
  have hlost : lostAfter l.lost (wireMarked a false (p :: arr)) = some 0 := by
    rw [← Link.run_lost_eq (h264Handler S spspps), hrun]
    exact hin.lost
  have hbroken : Broken V { l₁ with sent := l₁.sent + 1, lost := l₁.lost.map (· + 1) } a :=
    ⟨hin.seq.lose, ⟨b, hb⟩, hin.haveTs, hin.ts, .inr ⟨0, by simp [hin.lost]⟩, by simp [hin.lost]⟩
  have hvis₃ : GapsVisible (l₁.lost.map (· + 1)) (wireMarked a true rest) := by
    rw [hlost] at hvis₂
    rw [hin.lost]
    simpa [lostAfter, hq] using hvis₂
  obtain ⟨l', hrun', hem', hbd, hsome, hflag, hw⟩ := hbroken.run law rest
    (fun x hx => hne x (List.mem_append_right _ (List.mem_cons_of_mem q hx))) hvis₃
  refine ⟨l', hrun', hem'.trans hem, hbd, hsome, ?_, hw (.inr ⟨0, by simp [hin.lost]⟩)⟩
  by_cases hrest : rest = []
  · -- The lost packet is the last one of the unit.
    intro hzero
    rw [← hrun', hrest] at hzero
    simp [wireMarked, hin.lost] at hzero
  · exact hflag hrest

/-- Losses at the start of a unit show, unless nothing was delivered before. -/
theorem gap_or_fresh {n : ℕ} (hvis : ∀ m ∈ (l.skip n).lost, m % 65536 = 0 → m = 0) (hn : n ≠ 0) :
    (l.skip n).gap = true ∨ l.lost = none := by
  cases hlost : l.lost with
  | none => exact .inr rfl
  | some k => exact .inl (gap_skip hvis hlost (by omega))

/-- A unit of which exactly an end arrives, behind the losses at its start. -/
theorem tail_outcome (law : StoreLaw S spspps silent V) {u : H264Unit} {gone : List Packet}
    {p : Packet} {rest : List Packet} (hsplit : groupPackets u.groups = gone ++ p :: rest)
    (hgone : ∀ q ∈ gone, q.arrives = false) (harr : ∀ q ∈ p :: rest, q.arrives = true)
    (hB : Boundary V l) (hvis : ∀ m ∈ (l.skip gone.length).lost, m % 65536 = 0 → m = 0)
    (hent : Entered V l gone.length ((l.skip gone.length).entered u.accessUnit))
    (hclean : ((l.skip gone.length).entered u.accessUnit).auBad = false)
    (hraw : V.Raw l.out ((l.skip gone.length).entered u.accessUnit) [])
    (hfits : ∀ g ∈ u.groups, g.Fits V) {l' : Link α}
    (hrun : (l.skip gone.length).run (h264Handler S spspps)
      (wireMarked u.accessUnit true (p :: rest)) = l')
    (hroomy : Roomy V S spspps l u.accessUnit.wire → Roomy V S spspps (l.skip gone.length)
      (wireMarked u.accessUnit true (p :: rest))) :
    UnitOutcome V S spspps silent l u l' := by
  obtain ⟨before, g, after, gone', arr, hgroups, hpackets, rfl, rfl⟩ := groupPackets_split hsplit
  have hcut : gone' ≠ [] → (groupPackets before ++ gone').length ≠ 0 := by
    intro hne hzero
    simp only [List.length_append] at hzero
    exact hne (List.eq_nil_of_length_eq_zero (by omega))
  have hact : (l.skip (groupPackets before ++ gone').length).gap = true ∨ gone' ≠ [] →
      ((l.skip (groupPackets before ++ gone').length).entered u.accessUnit).fuActive = false := by
    rintro (hgap | hne)
    · exact (hent.gap hgap).2
    · rcases gap_or_fresh hvis (hcut hne) with hgap | hnone
      · exact (hent.gap hgap).2
      · exact (hent.fresh hnone).2.1
  have hfits' : ∀ x ∈ g :: after, x.Fits V := fun x hx =>
    hfits x (by rw [hgroups]; exact List.mem_append_right _ hx)
  rcases run_tail law (SeqInv.skip hB.seq _) hclean hraw hact hpackets harr hfits' with
    ⟨kept, l'', hrun', hkept, hended⟩ | hover | ⟨hlost, hspoiled⟩
  · -- The end is taken as it is.
    obtain rfl : l'' = l' := hrun'.symm.trans hrun
    exact .tail before g after gone' (p :: arr) kept
      ⟨hgroups, hpackets, List.cons_ne_nil _ _, hgone, harr⟩ hvis hent hclean hkept hended
  · -- There is no room for it.
    obtain ⟨hem, hbd, -, hroom⟩ := hover
    rw [List.cons_append, hrun] at hem hbd
    exact .overflowed hem hbd fun hr => hroom (hroomy hr)
  · -- Behind the loss the unit is spoiled.
    obtain ⟨l'', hrun', hem, hbd, hsome, hflag, hwait⟩ := hspoiled
    obtain rfl : l'' = l' := hrun'.symm.trans hrun
    refine .broken hem hbd hsome hflag ?_
    intro _ hstart
    rcases hlost with hgap | hne
    · exact hwait (hent.gap hgap).1
    · rcases gap_or_fresh hvis (hcut hne) with hgap | hnone
      · exact hwait (hent.gap hgap).1
      · -- Nothing was delivered before, and the unit does not arrive from its start.
        exfalso
        obtain ⟨c, cs, hcs⟩ := List.exists_cons_of_ne_nil
          (fun hnil => hcut hne (by rw [hnil]; rfl) : groupPackets before ++ gone' ≠ [])
        have hc : c.arrives = false := hgone c (by rw [hcs]; exact List.mem_cons_self)
        rw [hcs, List.cons_append] at hsplit
        have hp := hstart hnone c _ hsplit hc p (by simp)
        exact Bool.false_ne_true (hp.symm.trans (harr p List.mem_cons_self))

/-- What comes of an access unit is one of the four cases. -/
theorem unit_outcome (law : StoreLaw S spspps silent V) (hB : Boundary V l) (u : H264Unit)
    (hvis : GapsVisible l.lost u.accessUnit.wire) (hfits : ∀ g ∈ u.groups, g.Fits V) :
    UnitOutcome V S spspps silent l u (l.run (h264Handler S spspps) u.accessUnit.wire) := by
  have hwire : u.accessUnit.wire = wireMarked u.accessUnit true (groupPackets u.groups) :=
    wirePackets_eq_wireMarked _ _
  -- The first packet that arrives decides how the unit is entered.
  rcases first_packet Packet.arrives (groupPackets u.groups) with
    hnone | ⟨gone, p, rest, hsplit, hgone, harr⟩
  · refine .gone hnone ?_
    rw [hwire]
    exact run_gone _ _ hnone l
  rw [hsplit, wireMarked_append, List.isEmpty_cons, Bool.and_false] at hwire
  rw [hwire] at hvis
  obtain ⟨-, hvisP⟩ := hvis.append
  rw [lostAfter_gone hgone] at hvisP
  have hlostP : ∀ m ∈ (l.skip gone.length).lost, m % 65536 = 0 → m = 0 := by
    rw [wireMarked] at hvisP
    exact hvisP.1 harr
  have hvisR : GapsVisible (some 0) (wireMarked u.accessUnit true rest) := by
    rw [wireMarked] at hvisP
    simpa [lostAfter, harr] using hvisP.2
  have hseq := SeqInv.skip hB.seq gone.length
  have hent : Entered V l gone.length ((l.skip gone.length).entered u.accessUnit) :=
    hB.entered law hlostP
  have hne : ∀ q ∈ gone ++ p :: rest, q.payload ≠ [] := by
    rw [← hsplit]
    exact payload_of_mem_groupPackets
  have hneP : ∀ q ∈ p :: rest, q.payload ≠ [] := fun q hq => hne q (List.mem_append_right _ hq)
  have hrun : l.run (h264Handler S spspps) u.accessUnit.wire =
      (l.skip gone.length).run (h264Handler S spspps)
        (wireMarked u.accessUnit true (p :: rest)) := by
    rw [hwire, Link.run_append, run_gone _ _ hgone]
  have hroomy : Roomy V S spspps l u.accessUnit.wire → Roomy V S spspps (l.skip gone.length)
      (wireMarked u.accessUnit true (p :: rest)) := by
    rw [hwire, roomy_append, run_gone _ _ hgone]
    exact And.right
  -- The unit is bad already, or a later loss breaks it, or it arrives up to its end.
  rcases hent.state with ⟨hbad, b, hraw⟩ | ⟨hclean, hraw⟩
  · obtain ⟨hem, hk, hstay, b', hb'⟩ := absorb_stays law hraw (l.skip gone.length).gap
      (hneP p List.mem_cons_self)
    obtain ⟨l', heq, hem', hbd, hsome, hflag, hwait⟩ := bad_finish law hseq harr hneP rfl hem hk
      (hstay hbad) hb' hvisR
    rw [hrun, heq]
    exact .broken hem' hbd hsome hflag fun hw _ => hwait (hent.bad hbad hw)
  · rcases first_packet (fun q => !q.arrives) rest with hall | ⟨arr, q, rest', hcut, hpre, hq⟩
    · have hall' : ∀ q ∈ p :: rest, q.arrives = true := by
        intro q hq
        rcases List.mem_cons.1 hq with rfl | hmem
        · exact harr
        · simpa using hall q hmem
      exact tail_outcome law hsplit hgone hall' hB hlostP hent hclean hraw hfits hrun.symm hroomy
    · have hpre' : ∀ x ∈ p :: arr, x.arrives = true := by
        intro x hx
        rcases List.mem_cons.1 hx with rfl | hmem
        · exact harr
        · simpa using hpre x hmem
      rw [hcut, ← List.cons_append] at hneP hvisP hrun
      obtain ⟨l', heq, hem', hbd, hsome, hflag, hwait⟩ := run_broken law hseq ⟨[], hraw⟩ hneP hpre'
        (by simpa using hq) hvisP
      rw [hrun, heq]
      exact .broken hem' hbd hsome hflag fun _ _ => hwait

end Unit

end Stream
end ToonVpu
