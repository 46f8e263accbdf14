import ToonVpu.Stream.H264Outcome

/-!
# H264Loss — do the H.264 handlers emit whole pictures only?

Over every stream of a well-formed sender and every choice of lost packets: whenever a handler
emits slices of an access unit, does it emit all of them?  Both handlers do, as long as losses show
in the sequence numbers and no picture loses its first slices and nothing else.  The gap that such
a loss leaves shows on a packet with a new timestamp, where neither handler marks the unit bad; the
waiting flag then keeps P slices out, but not the remaining IDR slices.
-/

namespace ToonVpu
namespace Stream

open Foundation
open Lib

/-! ## Statement -/

/-- While the packets of a unit are sent, at most one access unit is emitted.  It consists of NAL
units of that unit, in order, and has all of its slices or none. -/
def EmitsWholeUnits {α : Type*} (handle : Handler α) (emitted : α → List (List UInt8))
    (spspps : List UInt8) (l : Link α) (units : List H264Unit) : Prop :=
  ∀ before u after, units = before ++ u :: after → ∃ kept : List Nal,
    emitted (l.run handle (h264Wire (before ++ [u]))).out =
        emitted (l.run handle (h264Wire before)).out ++ emission spspps kept ∧
      kept.Sublist u.nals ∧ (slices kept = [] ∨ slices kept = slices u.nals)

/-- The slices of a picture are all IDR slices, or none is. -/
def UniformIdr (u : H264Unit) : Prop :=
  (∀ n ∈ slices u.nals, n.isIdr = true) ∨ ∀ n ∈ slices u.nals, n.isIdr = false

/-- The handler passes over what arrives of the group `g`, without marking the unit bad: `g` is an
FU-A group whose first fragment is lost or shows the gap.  The direct handler does so only if the
gap shows on the last fragment. -/
def PassesOver (silent gap : Bool) (g : Group) (gone arr : List Packet) : Prop :=
  g.isFuA = true ∧
    (silent = true ∧ (gap = true ∨ gone ≠ []) ∨ gap = true ∧ arr.length = 1)

/-- Whenever exactly an end of the unit arrives, it has all slices of the unit, or none of them
gets through because the receiver waits for an IDR slice and there is none. -/
def TailSafe (silent : Bool) (lost : Option ℕ) (u : H264Unit) : Prop :=
  ∀ before g after gone arr, Tail u before g after gone arr →
    (slices (groupNals before) = [] ∧
        (PassesOver silent (gapSeen (lost.map (· + lostCount before gone))) g gone arr →
          slices g.nals = [])) ∨
      (lost ≠ none ∧ ∀ n ∈ slices u.nals, n.isIdr = false)

/-- Each fragmented NAL unit fits into `fu`. -/
def FuFits (u : H264Unit) : Prop :=
  ∀ g ∈ u.groups, g.isFuA = true → ∀ n ∈ g.nals, n.bytes.length ≤ fuSize

/-- A zeroed receiver in front of an empty descriptor. -/
def bufferedStart (first : ℕ) : Link (List (List UInt8)) := ⟨[], {}, first, none⟩

/-! ## Slices that get through -/

theorem Group.slices_kept_idr (need : Bool) {g : Group}
    (h : ∀ n ∈ slices g.nals, n.isIdr = true) : slices (g.kept need) = slices g.nals := by
  have hpass : ∀ n ∈ g.nals, n.isSlice = true → n.passes need = true := by
    intro n hn hs
    have hidr := h n (List.mem_filter.2 ⟨hn, hs⟩)
    simp only [Nal.isIdr, decide_eq_true_eq] at hidr
    simp [Nal.passes, hidr]
  have hfilter : ∀ xs : List Nal, (∀ n ∈ xs, n.isSlice = true → n.passes need = true) →
      slices (xs.filter (Nal.passes need)) = slices xs := by
    intro xs hxs
    rw [slices, List.filter_filter]
    refine List.filter_congr ?_
    intro n hn
    cases hs : n.isSlice with
    | true => simp [hxs n hn hs]
    | false => rfl
  cases g with
  | single e nal => exact hfilter _ hpass
  | stapA e top nals short => exact hfilter _ hpass
  | fuA header type_mem first mids last =>
    rw [kept]
    split
    · -- The NAL unit is not an IDR slice, so it is no slice at all.
      rename_i hskip
      have hno : ∀ n ∈ (fuA header type_mem first mids last).nals, n.isSlice = false := by
        intro n hn
        by_contra hs
        have hidr := h n (List.mem_filter.2 ⟨hn, by simpa using hs⟩)
        obtain rfl := List.mem_singleton.1 hn
        exact hskip.2 (of_decide_eq_true hidr)
      exact (List.filter_eq_nil_iff.2 fun n hn => by simp [hno n hn]).symm
    · rfl

/-- IDR slices always get through. -/
theorem slices_groupKept_idr (need : Bool) {gs : List Group}
    (h : ∀ n ∈ slices (groupNals gs), n.isIdr = true) :
    slices (groupKept need gs) = slices (groupNals gs) := by
  induction gs with
  | nil => rfl
  | cons g gs ih =>
    simp only [groupKept, groupNals, List.flatMap_cons, slices_append] at h ih ⊢
    rw [Group.slices_kept_idr need fun n hn => h n (List.mem_append_left _ hn),
      ih fun n hn => h n (List.mem_append_right _ hn)]

/-- Other slices never get through to a receiver that waits. -/
theorem slices_groupKept_none {gs : List Group}
    (h : ∀ n ∈ slices (groupNals gs), n.isIdr = false) : slices (groupKept true gs) = [] := by
  refine List.filter_eq_nil_iff.2 ?_
  intro n hn hs
  rcases groupKept_passes hn with hidr | hno
  · have hmem : n ∈ slices (groupNals gs) :=
      List.mem_filter.2 ⟨(groupKept_sublist true gs).subset hn, hs⟩
    exact Bool.false_ne_true ((h n hmem).symm.trans hidr)
  · exact Bool.false_ne_true (hno.symm.trans hs)

/-! ## Whole units -/

section Units

variable {α : Type*} {S : AuStore α} {spspps : List UInt8} {silent : Bool} {V : StoreView α}
  {l : Link α}

theorem UnitOutcome.boundary {u : H264Unit} {l' : Link α} (hB : Boundary V l)
    (h : UnitOutcome V S spspps silent l u l') : Boundary V l' := by
  cases h with
  | gone hgone heq =>
    rw [heq]
    refine hB.skip ?_
    have hne := u.accessUnit.nonempty
    exact fun hzero => hne (List.eq_nil_of_length_eq_zero hzero)
  | broken _ hbd _ _ _ => exact hbd
  | overflowed _ hbd _ => exact hbd
  | tail _ _ _ _ _ _ _ _ _ _ _ hended => exact hended.boundary

theorem run_boundary (law : StoreLaw S spspps silent V) (units : List H264Unit) :
    ∀ {l : Link α}, Boundary V l → GapsVisible l.lost (h264Wire units) →
      (∀ u ∈ units, ∀ g ∈ u.groups, g.Fits V) →
        Boundary V (l.run (h264Handler S spspps) (h264Wire units)) := by
  induction units with
  | nil =>
    intro l hB _ _
    exact hB
  | cons u units ih =>
    intro l hB hvis hfits
    have hcons : h264Wire (u :: units) = u.accessUnit.wire ++ h264Wire units := by
      simp [h264Wire, wire]
    rw [hcons] at hvis ⊢
    rw [Link.run_append]
    obtain ⟨hvisU, hvisR⟩ := hvis.append
    refine ih ((unit_outcome law hB u hvisU (hfits u List.mem_cons_self)).boundary hB) ?_
      fun x hx => hfits x (List.mem_cons_of_mem u hx)
    rwa [Link.run_lost_eq]

theorem lostCount_eq_zero {before : List Group} {gone : List Packet}
    (h : lostCount before gone = 0) : before = [] ∧ gone = [] := by
  rw [lostCount, List.length_append] at h
  have hpackets : groupPackets before = [] := List.eq_nil_of_length_eq_zero (by omega)
  have hgone : gone = [] := List.eq_nil_of_length_eq_zero (by omega)
  refine ⟨?_, hgone⟩
  rw [← List.isEmpty_iff, ← isEmpty_groupPackets, hpackets]
  rfl

theorem TailKept.sublist {u : H264Unit} {gap need : Bool} {before : List Group} {g : Group}
    {after : List Group} {gone arr : List Packet} {kept : List Nal}
    (h : TailKept silent gap need g after gone arr kept)
    (htail : Tail u before g after gone arr) : kept.Sublist u.nals := by
  rw [H264Unit.nals, htail.groups, groupNals, List.flatMap_append]
  rcases h with ⟨-, rfl⟩ | ⟨-, -, rfl, -⟩
  · exact (groupKept_sublist _ (g :: after)).trans (List.sublist_append_right _ _)
  · refine (groupKept_sublist _ after).trans ?_
    rw [List.flatMap_cons, ← List.append_assoc]
    exact List.sublist_append_right _ _

/-- Groups of a unit that has all slices of it. -/
theorem slices_kept_all {u : H264Unit} {need : Bool} {gs : List Group} (hidr : UniformIdr u)
    (hsub : ∀ n ∈ slices (groupNals gs), n ∈ slices u.nals)
    (hall : slices (groupNals gs) = slices u.nals) :
    slices (groupKept need gs) = [] ∨ slices (groupKept need gs) = slices u.nals := by
  rcases hidr with hyes | hno
  · right
    rw [slices_groupKept_idr need fun n hn => hyes n (hsub n hn), hall]
  · cases need with
    | true => exact .inl (slices_groupKept_none fun n hn => hno n (hsub n hn))
    | false =>
      right
      rw [groupKept_false, hall]

/-- The tail of a unit has all of its slices, or none that gets through. -/
theorem slices_tail {u : H264Unit} {before : List Group} {g : Group} {after : List Group}
    {gone arr : List Packet} {kept : List Nal} {need : Bool}
    (htail : Tail u before g after gone arr) (hidr : UniformIdr u)
    (hsafe : TailSafe silent l.lost u)
    (hneed : before ≠ [] ∨ gone ≠ [] ∨ (l.skip (lostCount before gone)).gap = true →
      l.lost ≠ none → need = true)
    (hkept : TailKept silent (l.skip (lostCount before gone)).gap need g after gone arr kept) :
    slices kept = [] ∨ slices kept = slices u.nals := by
  have hcons : slices (groupNals (g :: after)) = slices g.nals ++ slices (groupNals after) := by
    rw [groupNals, List.flatMap_cons, slices_append]
    rfl
  have hnals : slices u.nals =
      slices (groupNals before) ++ (slices g.nals ++ slices (groupNals after)) := by
    rw [H264Unit.nals, htail.groups, slices_groupNals_append, hcons]
  have hsubG : ∀ n ∈ slices (groupNals (g :: after)), n ∈ slices u.nals := by
    intro n hn
    rw [hnals, ← hcons]
    exact List.mem_append_right _ hn
  have hsubA : ∀ n ∈ slices (groupNals after), n ∈ slices u.nals := by
    intro n hn
    exact hsubG n (by rw [hcons]; exact List.mem_append_right _ hn)
  rcases hsafe before g after gone arr htail with ⟨hbefore, hpasses⟩ | ⟨hlost, hno⟩
  · rw [hbefore, List.nil_append] at hnals
    rcases hkept with ⟨-, rfl⟩ | ⟨hfu, hmiss, rfl, hreason⟩
    · exact slices_kept_all hidr hsubG (hcons.trans hnals.symm)
    · -- The group is passed over, so it must be without slices.
      have hslices : slices g.nals = [] ∨ need = true ∧ ∀ n ∈ slices u.nals, n.isIdr = false := by
        rcases hreason with hsilent | ⟨hneed', hg⟩ | hlast
        · exact .inl (hpasses ⟨hfu, .inl ⟨hsilent, hmiss⟩⟩)
        · rcases hidr with hyes | hno
          · refine .inl (List.filter_eq_nil_iff.2 ?_)
            intro n hn hs
            have hmem : n ∈ slices u.nals := by
              rw [hnals]
              exact List.mem_append_left _ (List.mem_filter.2 ⟨hn, hs⟩)
            exact Bool.false_ne_true ((hg n hn).symm.trans (hyes n hmem))
          · exact .inr ⟨hneed', hno⟩
        · exact .inl (hpasses ⟨hfu, .inr hlast⟩)
      rcases hslices with hnil | ⟨rfl, hno⟩
      · rw [hnil, List.nil_append] at hnals
        exact slices_kept_all hidr hsubA hnals.symm
      · exact .inl (slices_groupKept_none fun n hn => hno n (hsubA n hn))
  · cases need with
    | true =>
      left
      rcases hkept with ⟨-, rfl⟩ | ⟨-, -, rfl, -⟩
      · exact slices_groupKept_none fun n hn => hno n (hsubG n hn)
      · exact slices_groupKept_none fun n hn => hno n (hsubA n hn)
    | false =>
      -- The receiver does not wait, so nothing of the unit is missing.
      have hnone : ¬ (before ≠ [] ∨ gone ≠ [] ∨ (l.skip (lostCount before gone)).gap = true) :=
        fun hmiss => Bool.false_ne_true (hneed hmiss hlost)
      rw [not_or, not_or] at hnone
      obtain ⟨hbefore, hgone, hgap⟩ := hnone
      rcases hkept with ⟨-, rfl⟩ | ⟨-, hmiss, -⟩
      · rw [of_not_not hbefore] at hnals
        exact slices_kept_all hidr hsubG (hcons.trans hnals.symm)
      · rcases hmiss with h | h
        · exact absurd h hgap
        · exact absurd h hgone

/-- One unit. -/
theorem unit_whole (law : StoreLaw S spspps silent V) (hB : Boundary V l) {u : H264Unit}
    (hvis : GapsVisible l.lost u.accessUnit.wire) (hfits : ∀ g ∈ u.groups, g.Fits V)
    (hidr : UniformIdr u) (hsafe : TailSafe silent l.lost u) :
    ∃ kept : List Nal, V.emitted (l.run (h264Handler S spspps) u.accessUnit.wire).out =
        V.emitted l.out ++ emission spspps kept ∧
      kept.Sublist u.nals ∧ (slices kept = [] ∨ slices kept = slices u.nals) := by
  have hnothing : ∀ l' : Link α, V.emitted l'.out = V.emitted l.out → ∃ kept : List Nal,
      V.emitted l'.out = V.emitted l.out ++ emission spspps kept ∧ kept.Sublist u.nals ∧
        (slices kept = [] ∨ slices kept = slices u.nals) := by
    intro l' hem
    exact ⟨[], by simpa [emission] using hem, List.nil_sublist _, .inl rfl⟩
  cases unit_outcome law hB u hvis hfits with
  | gone _ heq => exact hnothing _ (by rw [heq]; rfl)
  | broken hem _ _ _ _ => exact hnothing _ hem
  | overflowed hem _ _ => exact hnothing _ hem
  | tail before g after gone arr kept htail hvis hentered hclean hkept hended =>
    refine ⟨kept, hended.emitted, hkept.sublist htail, slices_tail htail hidr hsafe ?_ hkept⟩
    intro hmiss hlost
    obtain ⟨k, hk⟩ := Option.ne_none_iff_exists'.1 hlost
    refine (hentered.gap ?_).1
    by_cases hgap : (l.skip (lostCount before gone)).gap = true
    · exact hgap
    · refine gap_skip hvis hk fun hzero => ?_
      obtain ⟨hbefore, hgone⟩ := lostCount_eq_zero (Nat.eq_zero_of_add_eq_zero_left hzero)
      rcases hmiss with h | h | h
      · exact h hbefore
      · exact h hgone
      · exact hgap h

/-- Every run, for a store with the laws. -/
theorem emits_whole_units (law : StoreLaw S spspps silent V) (hB : Boundary V l)
    (hlost : l.lost = none) {units : List H264Unit} (hvis : GapsVisible none (h264Wire units))
    (hfits : ∀ u ∈ units, ∀ g ∈ u.groups, g.Fits V) (hidr : ∀ u ∈ units, UniformIdr u)
    (hsafe : ∀ before u after, units = before ++ u :: after →
      TailSafe silent (lostAfter none (h264Wire before)) u) :
    EmitsWholeUnits (h264Handler S spspps) V.emitted spspps l units := by
  intro before u after hsplit
  have hmem : ∀ x ∈ before ++ [u], x ∈ units := by
    intro x hx
    rw [hsplit, ← List.singleton_append, ← List.append_assoc]
    exact List.mem_append_left _ hx
  have hu : u ∈ units := hmem u (by simp)
  have hwire : h264Wire units = h264Wire before ++ (u.accessUnit.wire ++ h264Wire after) := by
    rw [hsplit]
    simp [h264Wire, wire]
  rw [hwire] at hvis
  obtain ⟨hvisB, hvisT⟩ := hvis.append
  have hvisU := hvisT.append.1
  have hB' := run_boundary law before hB (by rwa [hlost]) fun x hx =>
    hfits x (hmem x (List.mem_append_left _ hx))
  have hlost' : (l.run (h264Handler S spspps) (h264Wire before)).lost =
      lostAfter none (h264Wire before) := by rw [Link.run_lost_eq, hlost]
  rw [h264Wire_concat, Link.run_append]
  refine unit_whole law hB' (by rwa [hlost']) (hfits u hu) (hidr u hu) ?_
  rw [hlost']
  exact hsafe before u after hsplit

end Units

/-! ## The two handlers -/

theorem Boundary.buffered (spspps : List UInt8) (first : ℕ) :
    Boundary (bufferedView spspps) (bufferedStart first) :=
  ⟨⟨rfl, by simp [bufferedStart]⟩, ⟨[], ⟨rfl, rfl⟩, fun _ => .inl rfl⟩, rfl,
    fun _ => ⟨rfl, rfl, rfl, rfl, rfl⟩⟩

theorem Boundary.direct (bs : BitstreamMem) (spspps : List UInt8) (mem : ℕ → UInt8)
    (sched : List ℕ) (first : ℕ) :
    Boundary (directView bs spspps) (directStart bs mem sched first) := by
  have h := DirectInv.start bs mem sched first
  exact ⟨h.seq, ⟨[], h.staged, fun _ => .inl rfl⟩, rfl, fun _ => ⟨rfl, rfl, rfl, rfl, rfl⟩⟩

/-- The access units committed to the ring. -/
def committed (d : Decoder) : List (List UInt8) := Fifo.commits d.events

/-- Both handlers emit all slices of a unit or none, in every stream whose losses show in the
sequence numbers, and of whose units no end arrives that lacks some of the slices. -/
theorem h264_emits_whole_units (spspps : List UInt8) (units : List H264Unit) (first : ℕ)
    (hvisible : GapsVisible none (h264Wire units)) (hidr : ∀ u ∈ units, UniformIdr u) :
    ((∀ before u after, units = before ++ u :: after →
          TailSafe true (lostAfter none (h264Wire before)) u ∧ FuFits u) →
        EmitsWholeUnits (handleRtpH264 spspps) id spspps (bufferedStart first) units) ∧
      ∀ (bs : BitstreamMem) (mem : ℕ → UInt8) (sched : List ℕ),
        (∀ before u after, units = before ++ u :: after →
          TailSafe false (lostAfter none (h264Wire before)) u) →
        EmitsWholeUnits (handleRtpH264Direct spspps) committed spspps
          (directStart bs mem sched first) units := by
  constructor
  · intro hsafe
    refine emits_whole_units (bufferedLaw spspps) (.buffered spspps first) rfl hvisible ?_ hidr
      fun before u after hsplit => (hsafe before u after hsplit).1
    intro u hu
    obtain ⟨before, after, hsplit⟩ := List.append_of_mem hu
    exact (hsafe before u after hsplit).2
  · intro bs mem sched hsafe
    exact emits_whole_units (directLaw bs spspps) (.direct bs spspps mem sched first) rfl hvisible
      (fun _ _ _ _ _ _ _ => trivial) hidr hsafe

/-- An IDR picture, and a P picture in two slices of which the first one is lost: the first picture
is emitted, and nothing of the second one. -/
theorem h264_emits_whole_units_slice_lost :
    ∃ units : List H264Unit, units.length = 2 ∧
      EmitsWholeUnits (handleRtpH264 []) id [] (bufferedStart 65535) units ∧
      EmitsWholeUnits (handleRtpH264Direct []) committed []
        (directStart ⟨4096, by decide⟩ (fun _ => 0) [] 65535) units ∧
      ((bufferedStart 65535).run (handleRtpH264 []) (h264Wire units)).out =
        [[0, 0, 0, 1, 0x65, 1]] := by
  let u : H264Unit := { ts := 1, groups := [.single {} ⟨0x65, [1], by decide⟩] }
  let v : H264Unit :=
    { ts := 2
      groups := [.single { arrives := false } ⟨0x41, [2], by decide⟩,
        .single {} ⟨0x41, [3], by decide⟩] }
  have hvis : GapsVisible none (h264Wire [u, v]) := by
    simp [u, v, h264Wire, wire, AccessUnit.wire, H264Unit.accessUnit, groupPackets, Group.packets,
      Envelope.packet, wirePackets, GapsVisible, lostAfter]
  have hidr : ∀ x ∈ [u, v], UniformIdr x := by
    intro x hx
    rcases List.mem_cons.1 hx with rfl | hx
    · exact .inl (by decide)
    · obtain rfl := List.mem_singleton.1 hx
      exact .inr (by decide)
  have hsafe : ∀ silent before x after, [u, v] = before ++ x :: after →
      TailSafe silent (lostAfter none (h264Wire before)) x ∧ FuFits x := by
    intro silent before x after hsplit
    rcases before with _ | ⟨y, _ | ⟨z, before⟩⟩
    · -- The first unit has one packet, and nothing is before it.
      obtain ⟨rfl, -⟩ := List.cons.inj hsplit
      refine ⟨?_, by simp [FuFits, u, Group.isFuA]⟩
      intro before g after gone arr htail
      left
      have hgroups : [Group.single {} ⟨0x65, [1], by decide⟩] = before ++ g :: after := htail.groups
      rcases before with _ | ⟨b, before⟩
      · obtain ⟨rfl, -⟩ := List.cons.inj hgroups
        exact ⟨rfl, fun hpass => absurd hpass.1 (by simp [Group.isFuA])⟩
      · simp at hgroups
    · -- The second unit has no IDR slice.
      obtain ⟨rfl, hrest⟩ := List.cons.inj hsplit
      obtain ⟨rfl, -⟩ := List.cons.inj hrest
      refine ⟨?_, by simp [FuFits, v, Group.isFuA]⟩
      intro _ _ _ _ _ _
      exact .inr ⟨by decide, by decide⟩
    · have hlen := congrArg List.length hsplit
      simp at hlen
  have hboth := h264_emits_whole_units [] [u, v] 65535 hvis hidr
  exact ⟨[u, v], rfl, hboth.1 (hsafe true), hboth.2 _ _ _ fun before x after hsplit =>
    (hsafe false before x after hsplit).1, by decide +kernel⟩

/-- An IDR picture in two slices of which only the second one arrives: both handlers emit it
alone. -/
theorem h264_emits_part_of_picture :
    ¬ (∀ (spspps : List UInt8) (units : List H264Unit) (first : ℕ),
        EmitsWholeUnits (handleRtpH264 spspps) id spspps (bufferedStart first) units) ∧
      ¬ ∀ (spspps : List UInt8) (units : List H264Unit) (first : ℕ) (bs : BitstreamMem)
          (mem : ℕ → UInt8) (sched : List ℕ),
        EmitsWholeUnits (handleRtpH264Direct spspps) committed spspps
          (directStart bs mem sched first) units := by
  let u : H264Unit := { ts := 1, groups := [.single {} ⟨0x65, [1], by decide⟩] }
  let v : H264Unit :=
    { ts := 2
      groups := [.single { arrives := false } ⟨0x65, [2], by decide⟩,
        .single {} ⟨0x65, [3], by decide⟩] }
  -- All NAL units of the picture are slices, so what is kept is all or nothing.
  have hall : ∀ kept : List Nal, kept.Sublist v.nals →
      slices kept = [] ∨ slices kept = slices v.nals →
        emission [] kept ≠ [[0, 0, 0, 1, 0x65, 3]] := by
    intro kept hsub hslices
    have hkept : slices kept = kept := by
      refine List.filter_eq_self.2 fun n hn => ?_
      have hn' := hsub.subset hn
      simp only [v, H264Unit.nals, groupNals, Group.nals, List.flatMap_cons, List.flatMap_nil,
        List.cons_append, List.nil_append, List.append_nil, List.mem_cons, List.not_mem_nil,
        or_false] at hn'
      rcases hn' with rfl | rfl <;> rfl
    rw [hkept] at hslices
    rcases hslices with rfl | rfl
    · decide
    · decide
  constructor
  · intro hwhole
    obtain ⟨kept, hem, hsub, hslices⟩ := hwhole [] [u, v] 0 [u] v [] rfl
    have hboth : id ((bufferedStart 0).run (handleRtpH264 []) (h264Wire ([u] ++ [v]))).out =
        [[0, 0, 0, 1, 0x65, 1], [0, 0, 0, 1, 0x65, 3]] := by decide +kernel
    have hone : id ((bufferedStart 0).run (handleRtpH264 []) (h264Wire [u])).out =
        [[0, 0, 0, 1, 0x65, 1]] := by decide +kernel
    rw [hboth, hone] at hem
    exact hall kept hsub hslices (List.cons.inj hem).2.symm
  · intro hwhole
    obtain ⟨kept, hem, hsub, hslices⟩ :=
      hwhole [] [u, v] 0 ⟨4096, by decide⟩ (fun _ => 0) [] [u] v [] rfl
    have hboth : committed ((directStart ⟨4096, by decide⟩ (fun _ => 0) [] 0).run
        (handleRtpH264Direct []) (h264Wire ([u] ++ [v]))).out =
        [[0, 0, 0, 1, 0x65, 1], [0, 0, 0, 1, 0x65, 3]] := by decide +kernel
    have hone : committed ((directStart ⟨4096, by decide⟩ (fun _ => 0) [] 0).run
        (handleRtpH264Direct []) (h264Wire [u])).out = [[0, 0, 0, 1, 0x65, 1]] := by
      decide +kernel
    rw [hboth, hone] at hem
    exact hall kept hsub hslices (List.cons.inj hem).2.symm

end Stream
end ToonVpu
