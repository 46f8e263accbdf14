import ToonVpu.Stream.H264Loss

/-!
# H264Chain — does a lost picture stop the pictures that refer to it?

Once a handler has discarded an access unit with a slice in it, it should emit no P or B slice
before an IDR slice.  It does so for every choice of lost packets, as long as nothing is discarded
for want of room, the stream is joined at the start of an access unit, and no unit with an IDR
slice is abandoned while its buffer is still empty.  A full buffer marks a unit bad without making
the handler wait, and an abandoned IDR slice leaves a flag behind that ends the waiting too early.
-/

namespace ToonVpu
namespace Stream

open Foundation
open Lib

/-! ## Statement -/

/-- The units that were sent, each with the NAL units of it that were emitted. -/
abbrev EmitLog := List (H264Unit × List Nal)

/-- The units of a log. -/
def EmitLog.units (log : EmitLog) : List H264Unit := log.map Prod.fst

/-- The log says what the handler emitted while it received each unit. -/
def EmitLog.Records {α : Type*} (handle : Handler α) (emitted : α → List (List UInt8))
    (spspps : List UInt8) (l : Link α) (log : EmitLog) : Prop :=
  ∀ before x after, log = before ++ x :: after →
    emitted (l.run handle (h264Wire (EmitLog.units (before ++ [x])))).out =
        emitted (l.run handle (h264Wire (EmitLog.units before))).out ++ emission spspps x.2 ∧
      x.2.Sublist x.1.nals

/-- A unit with slices of which none was emitted, once the receiver has joined the stream. -/
def Discarded (before : EmitLog) (x : H264Unit × List Nal) : Prop :=
  slices x.1.nals ≠ [] ∧ slices x.2 = [] ∧
    lostAfter none (h264Wire (EmitLog.units (before ++ [x]))) ≠ none

/-- Between a discarded unit and the next emission of a slice that is no IDR slice, an IDR slice
was emitted. -/
def EmitLog.ChainSafe (log : EmitLog) : Prop :=
  ∀ before x mid y after, log = before ++ x :: mid ++ y :: after → Discarded before x →
    (∃ n ∈ y.2, n.isSlice = true ∧ n.isIdr = false) → ∃ z ∈ mid, ∃ n ∈ z.2, n.isIdr = true

/-- What the handler emits over the whole run is safe for the decoder's reference chain. -/
def KeepsChain {α : Type*} (handle : Handler α) (emitted : α → List (List UInt8))
    (spspps : List UInt8) (l : Link α) (units : List H264Unit) : Prop :=
  ∃ log : EmitLog, log.units = units ∧ log.Records handle emitted spspps l ∧ log.ChainSafe

/-- No unit is abandoned (by the arrival of another timestamp) that has an IDR flag, but no bytes
yet, and is not bad. -/
def NoStaleIdr {α : Type*} (handle : Handler α) : Link α → List WirePacket → Prop
  | _, [] => True
  | l, w :: ws =>
    (w.packet.arrives = true → l.st.auTs ≠ w.unit.ts.toNat → l.st.auLen = 0 →
        l.st.auHasIdr = true → l.st.auBad = true) ∧
      NoStaleIdr handle (l.send handle w) ws

/-! ## One unit -/

theorem noStaleIdr_append {α : Type*} {handle : Handler α} {l : Link α}
    (us ws : List WirePacket) :
    NoStaleIdr handle l (us ++ ws) ↔
      NoStaleIdr handle l us ∧ NoStaleIdr handle (l.run handle us) ws := by
  induction us generalizing l with
  | nil => simp [NoStaleIdr]
  | cons u us ih => rw [List.cons_append, NoStaleIdr, NoStaleIdr, ih, Link.run_cons, and_assoc]

section Units

variable {α : Type*} {S : AuStore α} {spspps : List UInt8} {silent : Bool} {V : StoreView α}
  {l : Link α}

/-- A unit that starts in a clean state starts without an IDR flag. -/
theorem entered_hasIdr {a : AccessUnit} {n : ℕ} (hB : Boundary V l) (hflag : FlagClean l)
    (hvis : ∀ m ∈ (l.skip n).lost, m % 65536 = 0 → m = 0)
    (hstale : l.st.auTs ≠ a.ts.toNat → l.st.auLen = 0 → l.st.auHasIdr = true → l.st.auBad = true)
    (hclean : ((l.skip n).entered a).auBad = false) :
    ((l.skip n).entered a).auHasIdr = false := by
  rcases (l.skip n).entered_cases a with ⟨hopen, -, heq⟩ | ⟨-, -, -, heq⟩ | ⟨hnew, heq⟩
  · -- The unit goes on from one whose last packet arrived.
    rw [heq] at hclean ⊢
    have hbad : l.st.auBad = false ∧ (l.skip n).gap = false := Bool.or_eq_false_iff.1 hclean
    have hopen' : l.st.auHaveTs = true := hopen
    obtain ⟨k, hk⟩ : ∃ k, l.lost = some k :=
      Option.isSome_iff_exists.1 (hB.haveTs.symm.trans hopen')
    have hzero : l.lost = some 0 := by
      by_cases hpos : k + n = 0
      · rw [hk]
        simp only [Option.some.injEq]
        omega
      · exact absurd (hbad.2.symm.trans (gap_skip hvis hk hpos)) Bool.false_ne_true
    rcases hflag hzero with hidr | hb
    · exact hidr
    · exact absurd (hbad.1.symm.trans hb) Bool.false_ne_true
  · rw [heq]
    rfl
  · rw [heq] at hclean ⊢
    have hbad : l.st.auBad = false := hclean
    show l.st.auHasIdr = false
    rcases hnew with hfirst | ⟨hts, hnil⟩
    · have hsome := hB.haveTs
      have hfirst' : l.st.auHaveTs = false := hfirst
      rw [hfirst', eq_comm, Option.isSome_eq_false_iff, Option.isNone_iff_eq_none] at hsome
      exact (hB.fresh hsome).2.2.1
    · by_contra hidr
      exact absurd (hbad.symm.trans (hstale hts hnil (by simpa using hidr))) Bool.false_ne_true

/-- What the analysis keeps between two units. -/
structure ChainInv (V : StoreView α) (l : Link α) : Prop where
  boundary : Boundary V l
  bad : l.st.auBad = true → Waits l
  flag : FlagClean l

/-- What one unit does to the receiver's waiting: while it waits, the only slices that it emits are
IDR slices, and it waits on unless it emits one; after it discards a unit, it waits. -/
structure ChainStep (V : StoreView α) (spspps : List UInt8) (l : Link α) (u : H264Unit)
    (kept : List Nal) (l' : Link α) : Prop where
  emitted : V.emitted l'.out = V.emitted l.out ++ emission spspps kept
  sublist : kept.Sublist u.nals
  inv : ChainInv V l'
  idrOnly : Waits l → ∀ n ∈ kept, n.isSlice = true → n.isIdr = true
  waits : Waits l → Waits l' ∨ ∃ n ∈ kept, n.isIdr = true
  discard : slices u.nals ≠ [] → slices kept = [] → l'.lost ≠ none → Waits l'

/-- A unit of which nothing is emitted, after which the receiver waits. -/
theorem ChainStep.of_waits {u : H264Unit} {l' : Link α}
    (hem : V.emitted l'.out = V.emitted l.out) (hinv : ChainInv V l')
    (hw : Waits l → Waits l') (hd : l'.lost ≠ none → Waits l') :
    ChainStep V spspps l u [] l' :=
  ⟨by simpa [emission] using hem, List.nil_sublist _, hinv, fun _ n hn => absurd hn (by simp),
    fun h => .inl (hw h), fun _ _ h => hd h⟩

/-- Slices that are not IDR slices do not get through while the receiver waits. -/
theorem tailKept_idrOnly {gap : Bool} {g : Group} {after : List Group} {gone arr : List Packet}
    {kept : List Nal} (h : TailKept silent gap true g after gone arr kept) :
    ∀ n ∈ kept, n.isSlice = true → n.isIdr = true := by
  intro n hn hs
  have hpass : n.isIdr = true ∨ n.isSlice = false := by
    rcases h with ⟨-, rfl⟩ | ⟨-, -, rfl, -⟩ <;> exact groupKept_passes hn
  rcases hpass with hidr | hno
  · exact hidr
  · exact absurd (hno.symm.trans hs) Bool.false_ne_true

/-- At the end of a unit that was assembled from a waiting state, the receiver still waits unless
an IDR slice was kept. -/
theorem Ended.waits {st : H264RtpState} {s : α} {kept : List Nal} {l' : Link α}
    (h : Ended V spspps s st kept l') (hneed : st.needIdr = true) (hidr : st.auHasIdr = false) :
    Waits l' ∨ ∃ n ∈ kept, n.isIdr = true := by
  cases hany : kept.any Nal.isIdr with
  | true => exact .inr (List.any_eq_true.1 hany)
  | false =>
    refine .inl (.inl ?_)
    rw [h.need, hneed, hidr, hany]
    simp

/-- The packets of a unit, cut where those that arrive begin. -/
theorem Tail.wire_eq {u : H264Unit} {before : List Group} {g : Group} {after : List Group}
    {gone arr : List Packet} (h : Tail u before g after gone arr) :
    u.accessUnit.wire = wireMarked u.accessUnit false (groupPackets before ++ gone) ++
      wireMarked u.accessUnit true (arr ++ groupPackets after) := by
  have hpackets : u.accessUnit.packets =
      groupPackets before ++ gone ++ (arr ++ groupPackets after) := by
    show groupPackets u.groups = _
    rw [h.groups, groupPackets, List.flatMap_append, List.flatMap_cons, h.packets]
    simp [groupPackets]
  have hne : (arr ++ groupPackets after).isEmpty = false := by simp [h.nonempty]
  rw [AccessUnit.wire, wirePackets_eq_wireMarked, hpackets, wireMarked_append, hne]
  rfl

/-- The state in which the packets that arrive find the receiver. -/
theorem NoStaleIdr.tail {handle : Handler α} {u : H264Unit} {before : List Group} {g : Group}
    {after : List Group} {gone arr : List Packet}
    (h : NoStaleIdr handle l u.accessUnit.wire) (htail : Tail u before g after gone arr) :
    l.st.auTs ≠ u.accessUnit.ts.toNat → l.st.auLen = 0 → l.st.auHasIdr = true →
      l.st.auBad = true := by
  obtain ⟨p, ps, hps⟩ := List.exists_cons_of_ne_nil htail.nonempty
  have hp : p.arrives = true := htail.arrives p (by simp [hps])
  have hsplit := htail.wire_eq
  rw [hps, List.cons_append, wireMarked] at hsplit
  rw [hsplit, noStaleIdr_append, run_gone handle false htail.lost] at h
  exact h.2.1 hp

/-- A unit whose tail finds a receiver that does not wait is there from its start. -/
theorem Tail.whole {u : H264Unit} {before : List Group} {g : Group} {after : List Group}
    {gone arr : List Packet} (htail : Tail u before g after gone arr)
    (hstart : StartsWhole l.lost u)
    (hvis : ∀ m ∈ (l.skip (lostCount before gone)).lost, m % 65536 = 0 → m = 0)
    (hgap : (l.skip (lostCount before gone)).gap = false) : before = [] ∧ gone = [] := by
  by_cases hzero : lostCount before gone = 0
  · exact lostCount_eq_zero hzero
  · exfalso
    rcases gap_or_fresh hvis hzero with h | hnone
    · exact Bool.false_ne_true (hgap.symm.trans h)
    · obtain ⟨c, cs, hcs⟩ := List.exists_cons_of_ne_nil
        (fun hnil => hzero (by rw [lostCount, hnil]; rfl) : groupPackets before ++ gone ≠ [])
      obtain ⟨p, ps, hps⟩ := List.exists_cons_of_ne_nil htail.nonempty
      have hc : c.arrives = false := htail.lost c (by rw [hcs]; exact List.mem_cons_self)
      have hp : p.arrives = true := htail.arrives p (by simp [hps])
      have hpackets : groupPackets u.groups = c :: (cs ++ (arr ++ groupPackets after)) := by
        rw [htail.groups, groupPackets, List.flatMap_append, List.flatMap_cons, htail.packets,
          ← List.cons_append, ← hcs]
        simp [groupPackets]
      have hlost := hstart hnone c _ hpackets hc p (by simp [hps])
      exact Bool.false_ne_true (hlost.symm.trans hp)

/-- One unit. -/
theorem unit_chain (law : StoreLaw S spspps silent V) (h : ChainInv V l) {u : H264Unit}
    (hvis : GapsVisible l.lost u.accessUnit.wire) (hfits : ∀ g ∈ u.groups, g.Fits V)
    (hroom : Roomy V S spspps l u.accessUnit.wire) (hstart : StartsWhole l.lost u)
    (hstale : NoStaleIdr (h264Handler S spspps) l u.accessUnit.wire) :
    ∃ kept, ChainStep V spspps l u kept
      (l.run (h264Handler S spspps) u.accessUnit.wire) := by
  have hcases := unit_outcome law h.boundary u hvis hfits
  have hbd := hcases.boundary h.boundary
  generalize hl' : l.run (h264Handler S spspps) u.accessUnit.wire = l' at hcases hbd ⊢
  cases hcases with
  | gone hgone heq =>
    have hpos : (groupPackets u.groups).length ≠ 0 := fun hzero =>
      u.accessUnit.nonempty (List.eq_nil_of_length_eq_zero hzero)
    have hmore : l'.lost ≠ none → Waits l' := by
      intro hlost
      rw [heq] at hlost ⊢
      obtain ⟨k, hk⟩ := Option.ne_none_iff_exists'.1 hlost
      obtain ⟨m, hm, rfl⟩ := Option.map_eq_some_iff.1 hk
      exact .inr ⟨m + (groupPackets u.groups).length - 1, by
        rw [hk]
        simp only [Option.some.injEq]
        omega⟩
    have hwaits : Waits l → Waits l' := fun hw => heq ▸ hw.skip _
    refine ⟨[], .of_waits (by rw [heq]; rfl) ⟨hbd, ?_, ?_⟩ hwaits hmore⟩
    · intro hbad
      rw [heq] at hbad
      exact hwaits (h.bad hbad)
    · intro hzero
      rw [heq] at hzero
      obtain ⟨m, -, hm⟩ := Option.map_eq_some_iff.1 hzero
      omega
  | broken hem _ _ hflag hwaits =>
    have hw := hwaits h.bad hstart
    exact ⟨[], .of_waits hem ⟨hbd, fun _ => hw, hflag⟩ (fun _ => hw) fun _ => hw⟩
  | overflowed _ _ hfull => exact absurd hroom hfull
  | tail before g after gone arr kept htail hvisible hentered hclean hkept hended =>
    have hidr := entered_hasIdr h.boundary h.flag hvisible (hstale.tail htail) hclean
    refine ⟨kept, hended.emitted, hkept.sublist htail, ⟨hbd, ?_, ?_⟩, ?_, ?_, ?_⟩
    · intro hbad
      exact absurd (hended.bad.symm.trans hbad) Bool.false_ne_true
    · intro _
      left
      by_contra hflag
      have hset := hended.hasIdr (by simpa using hflag)
      exact Bool.false_ne_true (hidr.symm.trans hset)
    · intro hw
      rw [hentered.waits hw] at hkept
      exact tailKept_idrOnly hkept
    · intro hw
      exact hended.waits (hentered.waits hw) hidr
    · intro hslices hnone _
      cases hneed : ((l.skip (lostCount before gone)).entered u.accessUnit).needIdr with
      | true =>
        rcases hended.waits hneed hidr with hw | ⟨n, hn, hidr'⟩
        · exact hw
        · have hmem : n ∈ slices kept := List.mem_filter.2 ⟨hn, isSlice_of_isIdr hidr'⟩
          rw [hnone] at hmem
          exact absurd hmem List.not_mem_nil
      | false =>
        -- The receiver did not wait, so the unit was taken as a whole.
        exfalso
        have hgap : (l.skip (lostCount before gone)).gap = false := by
          by_contra hgap
          have htrue := (hentered.gap (by simpa using hgap)).1
          exact Bool.false_ne_true (hneed.symm.trans htrue)
        obtain ⟨rfl, rfl⟩ := htail.whole hstart hvisible hgap
        rw [hneed] at hkept
        rcases hkept with ⟨-, rfl⟩ | ⟨-, hmiss, -⟩
        · rw [groupKept_false] at hnone
          refine hslices ?_
          rw [H264Unit.nals, htail.groups]
          exact hnone
        · rcases hmiss with hg | hne
          · exact Bool.false_ne_true (hgap.symm.trans hg)
          · exact hne rfl

/-! ## Whole runs -/

/-- What holds of the log after every unit: a discarded unit behind which no IDR slice was emitted
leaves the receiver waiting. -/
structure LogInv (V : StoreView α) (S : AuStore α) (spspps : List UInt8) (l : Link α)
    (log : EmitLog) : Prop where
  inv : ChainInv V (l.run (h264Handler S spspps) (h264Wire log.units))
  records : log.Records (h264Handler S spspps) V.emitted spspps l
  safe : log.ChainSafe
  pending : ∀ before x mid, log = before ++ x :: mid → Discarded before x →
    (∃ z ∈ mid, ∃ n ∈ z.2, n.isIdr = true) ∨
      Waits (l.run (h264Handler S spspps) (h264Wire log.units))

theorem concat_eq_append_cons {β : Type*} {x y : β} {log before after : List β}
    (h : log ++ [x] = before ++ y :: after) :
    (after = [] ∧ before = log ∧ y = x) ∨
      ∃ after', after = after' ++ [x] ∧ log = before ++ y :: after' := by
  rcases List.eq_nil_or_concat after with rfl | ⟨after', z, rfl⟩
  · left
    obtain ⟨hlog, hx⟩ := List.append_inj' h rfl
    exact ⟨rfl, hlog.symm, (List.cons.inj hx).1.symm⟩
  · right
    rw [List.concat_eq_append, ← List.cons_append, ← List.append_assoc] at h
    obtain ⟨hlog, hx⟩ := List.append_inj' h rfl
    obtain rfl := (List.cons.inj hx).1
    exact ⟨after', List.concat_eq_append, hlog⟩

theorem units_concat (log : EmitLog) (x : H264Unit × List Nal) :
    EmitLog.units (log ++ [x]) = EmitLog.units log ++ [x.1] := by
  simp [EmitLog.units]

theorem LogInv.concat {log : EmitLog} {u : H264Unit} {kept : List Nal} (hlost : l.lost = none)
    (h : LogInv V S spspps l log)
    (hstep : ChainStep V spspps (l.run (h264Handler S spspps) (h264Wire log.units)) u kept
      ((l.run (h264Handler S spspps) (h264Wire log.units)).run (h264Handler S spspps)
        u.accessUnit.wire)) :
    LogInv V S spspps l (log ++ [(u, kept)]) := by
  have hrun : l.run (h264Handler S spspps) (h264Wire (EmitLog.units (log ++ [(u, kept)]))) =
      (l.run (h264Handler S spspps) (h264Wire log.units)).run (h264Handler S spspps)
        u.accessUnit.wire := by
    rw [units_concat, h264Wire_concat, Link.run_append]
  refine ⟨by rw [hrun]; exact hstep.inv, ?_, ?_, ?_⟩
  · intro before x after hsplit
    rcases concat_eq_append_cons hsplit with ⟨-, rfl, rfl⟩ | ⟨after', -, hlog⟩
    · rw [hrun]
      exact ⟨hstep.emitted, hstep.sublist⟩
    · exact h.records before x after' hlog
  · -- The last unit may emit other slices only if an IDR slice was emitted in between.
    intro before x mid y after hsplit hdis hother
    rcases concat_eq_append_cons hsplit with ⟨-, hbefore, rfl⟩ | ⟨after', -, hlog⟩
    · rcases h.pending before x mid hbefore.symm hdis with hidr | hwaits
      · exact hidr
      · obtain ⟨n, hn, hs, hno⟩ := hother
        have hyes := hstep.idrOnly hwaits n hn hs
        exact absurd (hno.symm.trans hyes) Bool.false_ne_true
    · exact h.safe before x mid y after' hlog hdis hother
  · intro before x mid hsplit hdis
    rw [hrun]
    rcases concat_eq_append_cons hsplit with ⟨-, rfl, rfl⟩ | ⟨mid', rfl, hlog⟩
    · right
      refine hstep.discard hdis.1 hdis.2.1 ?_
      rw [← hrun, Link.run_lost_eq, hlost]
      exact hdis.2.2
    · rcases h.pending before x mid' hlog hdis with ⟨z, hz, hidr⟩ | hwaits
      · exact .inl ⟨z, List.mem_append_left _ hz, hidr⟩
      · rcases hstep.waits hwaits with hw | hidr
        · exact .inr hw
        · exact .inl ⟨(u, kept), List.mem_append_right _ (List.mem_singleton_self _), hidr⟩

/-- Every run, for a store with the laws. -/
theorem keeps_chain (law : StoreLaw S spspps silent V) (hinv : ChainInv V l)
    (hlost : l.lost = none) {units : List H264Unit} (hvis : GapsVisible none (h264Wire units))
    (hfits : ∀ u ∈ units, ∀ g ∈ u.groups, g.Fits V)
    (hroom : Roomy V S spspps l (h264Wire units))
    (hstart : ∀ before u after, units = before ++ u :: after →
      StartsWhole (lostAfter none (h264Wire before)) u)
    (hstale : NoStaleIdr (h264Handler S spspps) l (h264Wire units)) :
    ∃ log : EmitLog, log.units = units ∧ LogInv V S spspps l log := by
  induction units using List.reverseRecOn with
  | nil =>
    have hnil : ∀ {β : Type _} {before after : List β} {x : β}, [] ≠ before ++ x :: after := by
      intro β before after x h
      exact absurd h.symm (by simp)
    exact ⟨[], rfl, hinv, fun before x after h => absurd h hnil,
      fun before x mid y after h => absurd h hnil, fun before x mid h => absurd h hnil⟩
  | append_singleton units u ih =>
    rw [h264Wire_concat] at hvis hroom hstale
    obtain ⟨hvisB, hvisU⟩ := hvis.append
    obtain ⟨hroomB, hroomU⟩ := (roomy_append _ _).1 hroom
    obtain ⟨hstaleB, hstaleU⟩ := (noStaleIdr_append _ _).1 hstale
    obtain ⟨log, rfl, hlog⟩ := ih hvisB (fun x hx => hfits x (List.mem_append_left _ hx)) hroomB
      (fun before x after hsplit => hstart before x (after ++ [u]) (by rw [hsplit]; simp)) hstaleB
    have hlost' : (l.run (h264Handler S spspps) (h264Wire log.units)).lost =
        lostAfter none (h264Wire log.units) := by rw [Link.run_lost_eq, hlost]
    have hstartU := hstart log.units u [] rfl
    rw [← hlost'] at hvisU hstartU
    obtain ⟨kept, hstep⟩ := unit_chain law hlog.inv hvisU
      (hfits u (List.mem_append_right _ (List.mem_singleton_self u))) hroomU hstartU hstaleU
    exact ⟨log ++ [(u, kept)], units_concat log (u, kept), hlog.concat hlost hstep⟩

end Units

/-! ## The two handlers -/

/-- Both handlers keep the reference chain of the decoder safe, in every stream whose losses show
in the sequence numbers and that is joined at the start of a unit, as long as there is room for
every packet and no IDR flag is left behind. -/
theorem h264_keeps_chain (spspps : List UInt8) (units : List H264Unit) (first : ℕ)
    (hvisible : GapsVisible none (h264Wire units))
    (hstart : ∀ before u after, units = before ++ u :: after →
      StartsWhole (lostAfter none (h264Wire before)) u) :
    ((∀ u ∈ units, FuFits u) →
        Roomy (bufferedView spspps) bufferedStore spspps (bufferedStart first) (h264Wire units) →
        NoStaleIdr (handleRtpH264 spspps) (bufferedStart first) (h264Wire units) →
        KeepsChain (handleRtpH264 spspps) id spspps (bufferedStart first) units) ∧
      ∀ (bs : BitstreamMem) (mem : ℕ → UInt8) (sched : List ℕ),
        Roomy (directView bs spspps) directStore spspps (directStart bs mem sched first)
          (h264Wire units) →
        NoStaleIdr (handleRtpH264Direct spspps) (directStart bs mem sched first)
          (h264Wire units) →
        KeepsChain (handleRtpH264Direct spspps) committed spspps (directStart bs mem sched first)
          units := by
  constructor
  · intro hfits hroom hstale
    have hinv : ChainInv (bufferedView spspps) (bufferedStart first) :=
      ⟨.buffered spspps first, fun hbad => absurd hbad Bool.false_ne_true, fun _ => .inl rfl⟩
    obtain ⟨log, hunits, hlog⟩ := keeps_chain (bufferedLaw spspps) hinv rfl hvisible hfits hroom
      hstart hstale
    exact ⟨log, hunits, hlog.records, hlog.safe⟩
  · intro bs mem sched hroom hstale
    have hinv : ChainInv (directView bs spspps) (directStart bs mem sched first) :=
      ⟨.direct bs spspps mem sched first, fun hbad => absurd hbad Bool.false_ne_true,
        fun _ => .inl rfl⟩
    obtain ⟨log, hunits, hlog⟩ := keeps_chain (directLaw bs spspps) hinv rfl hvisible
      (fun _ _ _ _ _ _ _ => trivial) hroom hstart hstale
    exact ⟨log, hunits, hlog.records, hlog.safe⟩

/-- An IDR picture, then a P picture that is lost and one that arrives: the second P picture is kept
back, and the stream goes on with the next IDR picture. -/
theorem h264_keeps_chain_picture_lost :
    ∃ units : List H264Unit, units.length = 4 ∧
      KeepsChain (handleRtpH264 []) id [] (bufferedStart 65535) units ∧
      KeepsChain (handleRtpH264Direct []) committed []
        (directStart ⟨4096, by decide⟩ (fun _ => 0) [] 65535) units ∧
      ((bufferedStart 65535).run (handleRtpH264 []) (h264Wire units)).out =
        [[0, 0, 0, 1, 0x65, 1], [0, 0, 0, 1, 0x65, 4]] := by
  let u : H264Unit := { ts := 1, groups := [.single {} ⟨0x65, [1], by decide⟩] }
  let v : H264Unit := { ts := 2, groups := [.single { arrives := false } ⟨0x41, [2], by decide⟩] }
  let w : H264Unit := { ts := 3, groups := [.single {} ⟨0x41, [3], by decide⟩] }
  let x : H264Unit := { ts := 4, groups := [.single {} ⟨0x65, [4], by decide⟩] }
  have hvis : GapsVisible none (h264Wire [u, v, w, x]) := by
    simp [u, v, w, x, h264Wire, wire, AccessUnit.wire, H264Unit.accessUnit, groupPackets,
      Group.packets, Envelope.packet, wirePackets, GapsVisible, lostAfter]
  have hone : ∀ y ∈ [u, v, w, x], (groupPackets y.groups).length = 1 := by decide
  have hstart : ∀ before y after, [u, v, w, x] = before ++ y :: after →
      StartsWhole (lostAfter none (h264Wire before)) y := by
    intro before y after hsplit _ p ps hps _ q hq
    have hlen := hone y (by rw [hsplit]; simp)
    rw [hps, List.length_cons] at hlen
    have hnil : ps = [] := List.eq_nil_of_length_eq_zero (by omega)
    rw [hnil] at hq
    exact absurd hq List.not_mem_nil
  have hboth := h264_keeps_chain [] [u, v, w, x] 65535 hvis hstart
  refine ⟨[u, v, w, x], rfl, hboth.1 ?_ ?_ ?_, hboth.2 _ _ _ ?_ ?_, by decide +kernel⟩
  · intro y hy g hg hfu
    have hno : ∀ y ∈ [u, v, w, x], ∀ g ∈ y.groups, g.isFuA = false := by decide
    exact absurd ((hno y hy g hg).symm.trans hfu) Bool.false_ne_true
  · refine ⟨?_, ?_, ?_, ?_, trivial⟩ <;> intro _ <;> exact Nat.le_of_ble_eq_true (by decide +kernel)
  · refine ⟨?_, ?_, ?_, ?_, trivial⟩ <;> decide +kernel
  · refine ⟨?_, ?_, ?_, ?_, trivial⟩ <;> intro _ <;> exact Nat.le_of_ble_eq_true (by decide +kernel)
  · refine ⟨?_, ?_, ?_, ?_, trivial⟩ <;> decide +kernel

theorem emission_eq_nil {spspps : List UInt8} {kept : List Nal} (h : emission spspps kept = []) :
    kept = [] := by
  unfold emission at h
  split at h
  · assumption
  · exact absurd h (List.cons_ne_nil _ _)

/-- The buffered handler forgets to wait after it abandoned an IDR picture of which only the first
fragment arrived: its flag is still set when a unit with parameter sets is flushed.  The direct
handler does not even start to wait when it joins a stream in the middle of a fragmented slice. -/
theorem h264_breaks_chain :
    ¬ (∀ (spspps : List UInt8) (units : List H264Unit) (first : ℕ),
        KeepsChain (handleRtpH264 spspps) id spspps (bufferedStart first) units) ∧
      ¬ ∀ (spspps : List UInt8) (units : List H264Unit) (first : ℕ) (bs : BitstreamMem)
          (mem : ℕ → UInt8) (sched : List ℕ),
        KeepsChain (handleRtpH264Direct spspps) committed spspps
          (directStart bs mem sched first) units := by
  let p : H264Unit := { ts := 4, groups := [.single {} ⟨0x41, [5], by decide⟩] }
  have hslice : ∀ kept : List Nal, kept.Sublist p.nals → kept ≠ [] →
      ∃ n ∈ kept, n.isSlice = true ∧ n.isIdr = false := by
    intro kept hsub hne
    obtain ⟨n, ns, rfl⟩ := List.exists_cons_of_ne_nil hne
    have hn : n ∈ p.nals := hsub.subset List.mem_cons_self
    obtain rfl := List.mem_singleton.1 hn
    exact ⟨_, List.mem_cons_self, rfl, rfl⟩
  constructor
  · intro hchain
    let u : H264Unit := { ts := 1, groups := [.single {} ⟨0x65, [1], by decide⟩] }
    let v : H264Unit :=
      { ts := 2
        groups := [.fuA 0x65 (by decide) { data := [2] } []
          { data := [3], envelope := { arrives := false } }] }
    let w : H264Unit := { ts := 3, groups := [.single {} ⟨0x67, [4], by decide⟩] }
    obtain ⟨log, hunits, hrec, hsafe⟩ := hchain [] [u, v, w, p] 0
    obtain ⟨⟨_, ku⟩, log₁, rfl, rfl, h₁⟩ := List.map_eq_cons_iff.1 hunits
    obtain ⟨⟨_, kv⟩, log₂, rfl, rfl, h₂⟩ := List.map_eq_cons_iff.1 h₁
    obtain ⟨⟨_, kw⟩, log₃, rfl, rfl, h₃⟩ := List.map_eq_cons_iff.1 h₂
    obtain ⟨⟨_, kp⟩, log₄, rfl, rfl, h₄⟩ := List.map_eq_cons_iff.1 h₃
    obtain rfl := List.map_eq_nil_iff.1 h₄
    -- Nothing of the abandoned picture is emitted, the parameter sets and the P picture are.
    have hv : ((bufferedStart 0).run (handleRtpH264 []) (h264Wire [u, v])).out =
        ((bufferedStart 0).run (handleRtpH264 []) (h264Wire [u])).out ++ emission [] kv :=
      (hrec [(u, ku)] (v, kv) [(w, kw), (p, kp)] rfl).1
    have hw := (hrec [(u, ku), (v, kv)] (w, kw) [(p, kp)] rfl).2
    have hp : ((bufferedStart 0).run (handleRtpH264 []) (h264Wire [u, v, w, p])).out =
        ((bufferedStart 0).run (handleRtpH264 []) (h264Wire [u, v, w])).out ++ emission [] kp :=
      (hrec [(u, ku), (v, kv), (w, kw)] (p, kp) [] rfl).1
    have hsub := (hrec [(u, ku), (v, kv), (w, kw)] (p, kp) [] rfl).2
    have hquiet : ((bufferedStart 0).run (handleRtpH264 []) (h264Wire [u, v])).out =
        ((bufferedStart 0).run (handleRtpH264 []) (h264Wire [u])).out := by decide +kernel
    have hloud : ((bufferedStart 0).run (handleRtpH264 []) (h264Wire [u, v, w, p])).out ≠
        ((bufferedStart 0).run (handleRtpH264 []) (h264Wire [u, v, w])).out := by decide +kernel
    have hkv : kv = [] := by
      rw [hquiet, List.self_eq_append_right] at hv
      exact emission_eq_nil hv
    have hkp : kp ≠ [] := by
      rintro rfl
      rw [show emission [] [] = [] from rfl, List.append_nil] at hp
      exact hloud hp
    have hslices : slices v.nals ≠ [] := by decide
    have hseen : lostAfter none (h264Wire [u, v]) ≠ none := by decide
    obtain ⟨z, hz, n, hn, hidr⟩ := hsafe [(u, ku)] (v, kv) [(w, kw)] (p, kp) [] rfl
      ⟨hslices, by rw [hkv]; rfl, hseen⟩ (hslice kp hsub hkp)
    obtain rfl := List.mem_singleton.1 hz
    obtain rfl := List.mem_singleton.1 (hw.subset hn)
    exact absurd hidr (by decide)
  · intro hchain
    let v : H264Unit :=
      { ts := 2
        groups := [.fuA 0x41 (by decide) { data := [2], envelope := { arrives := false } } []
          { data := [3] }] }
    obtain ⟨log, hunits, hrec, hsafe⟩ := hchain [] [v, p] 0 ⟨4096, by decide⟩ (fun _ => 0) []
    obtain ⟨⟨_, kv⟩, log₁, rfl, rfl, h₁⟩ := List.map_eq_cons_iff.1 hunits
    obtain ⟨⟨_, kp⟩, log₂, rfl, rfl, h₂⟩ := List.map_eq_cons_iff.1 h₁
    obtain rfl := List.map_eq_nil_iff.1 h₂
    have hv : committed ((directStart ⟨4096, by decide⟩ (fun _ => 0) [] 0).run
        (handleRtpH264Direct []) (h264Wire [v])).out = [] ++ emission [] kv :=
      (hrec [] (v, kv) [(p, kp)] rfl).1
    have hp : committed ((directStart ⟨4096, by decide⟩ (fun _ => 0) [] 0).run
        (handleRtpH264Direct []) (h264Wire [v, p])).out =
        committed ((directStart ⟨4096, by decide⟩ (fun _ => 0) [] 0).run
          (handleRtpH264Direct []) (h264Wire [v])).out ++ emission [] kp :=
      (hrec [(v, kv)] (p, kp) [] rfl).1
    have hsub := (hrec [(v, kv)] (p, kp) [] rfl).2
    have hquiet : committed ((directStart ⟨4096, by decide⟩ (fun _ => 0) [] 0).run
        (handleRtpH264Direct []) (h264Wire [v])).out = [] := by decide +kernel
    have hloud : committed ((directStart ⟨4096, by decide⟩ (fun _ => 0) [] 0).run
        (handleRtpH264Direct []) (h264Wire [v, p])).out ≠ [] := by decide +kernel
    have hkv : kv = [] := by
      rw [hquiet] at hv
      exact emission_eq_nil hv.symm
    have hkp : kp ≠ [] := by
      rintro rfl
      rw [hquiet] at hp
      exact hloud hp
    have hslices : slices v.nals ≠ [] := by decide
    have hseen : lostAfter none (h264Wire [v]) ≠ none := by decide
    obtain ⟨z, hz, -⟩ := hsafe [] (v, kv) [] (p, kp) [] rfl
      ⟨hslices, by rw [hkv]; rfl, hseen⟩ (hslice kp hsub hkp)
    exact absurd hz List.not_mem_nil

end Stream
end ToonVpu
