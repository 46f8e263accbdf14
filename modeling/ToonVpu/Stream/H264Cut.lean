import ToonVpu.Stream.H264Loss

/-!
# H264Cut — the packets of a sender, one after another

Groups and access units say how a sender makes its packets.  A receiver sees only one packet after
another, and what it can rely on is what adjacent packets say about each other: behind a fragment
that is not the last one comes the next fragment of the same NAL unit, and behind a marked packet
comes another timestamp.  `WellCut` states this for a list of packets, and `wellCut_units` proves it
for the packets of a sender.
-/

namespace ToonVpu
namespace Stream

open Foundation
open Lib

/-! ## Adjacent packets -/

/-- A fragment that is not the first one of its NAL unit. -/
def WirePacket.Continues (w : WirePacket) : Prop :=
  nalType w.packet.payload = 28 ∧ 2 ≤ w.packet.payload.length ∧
    fuStart w.packet.payload = false

instance (w : WirePacket) : Decidable w.Continues :=
  inferInstanceAs (Decidable (_ ∧ _ ∧ _))

/-- A fragment that is not the last one of its NAL unit. -/
def WirePacket.LeavesOpen (w : WirePacket) : Prop :=
  nalType w.packet.payload = 28 ∧ 2 ≤ w.packet.payload.length ∧ fuEnd w.packet.payload = false

/-- `w'` can be the packet right behind `w`. -/
structure Follows (w w' : WirePacket) : Prop where
  continues : w.LeavesOpen → w'.Continues ∧
    fuType w'.packet.payload = fuType w.packet.payload ∧ w'.unit.ts = w.unit.ts
  ts : w.marker = true → w'.unit.ts ≠ w.unit.ts

/-- How much is still to come of the NAL unit that is being sent. -/
def openLen : List WirePacket → ℕ
  | [] => 0
  | w :: ws =>
    if w.Continues then
      (w.packet.payload.drop 2).length + (if fuEnd w.packet.payload then 0 else openLen ws)
    else
      0

/-- Packets that can be sent one after another, with fragmented NAL units that fit into `fu`. -/
def WellCut : List WirePacket → Prop
  | [] => True
  | w :: ws =>
    w.packet.payload ≠ [] ∧ (w.LeavesOpen → w.marker = false) ∧
      (∀ w' ∈ ws.head?, Follows w w') ∧
      (nalType w.packet.payload = 28 → fuStart w.packet.payload = true →
        fuEnd w.packet.payload = false ∧
          1 + (w.packet.payload.drop 2).length + openLen ws ≤ fuSize) ∧
      WellCut ws

/-! ## The packets of a group -/

section Groups

variable {a : AccessUnit} {header : UInt8}

variable (a header) in
theorem continues_fragment (f : Fragment) (stop marked : Bool) :
    WirePacket.Continues ⟨a, f.packet header false stop, marked⟩ :=
  ⟨nalType_fragment, by simp, fuStart_fragment⟩

theorem leavesOpen_fragment {f : Fragment} {start stop marked : Bool} :
    WirePacket.LeavesOpen ⟨a, f.packet header start stop, marked⟩ ↔ stop = false := by
  simp [WirePacket.LeavesOpen]

/-- Behind a first fragment comes the rest of its NAL unit. -/
theorem openLen_tail (marked : Bool) (mids : List Fragment) (last : Fragment)
    (rest : List WirePacket) :
    openLen (wireMarked a marked (Group.tailPackets header mids last) ++ rest) =
      (mids.flatMap Fragment.data ++ last.data).length := by
  induction mids with
  | nil =>
    have hlast := continues_fragment a header last true marked
    simp [Group.tailPackets, wireMarked, openLen, hlast]
  | cons f mids ih =>
    have hcons : Group.tailPackets header (f :: mids) last =
        f.packet header false false :: Group.tailPackets header mids last := rfl
    have hmid := continues_fragment a header f false
      (marked && (Group.tailPackets header mids last).isEmpty)
    rw [hcons, wireMarked, List.cons_append, openLen, if_pos hmid, fuEnd_fragment, ih,
      drop_fragment]
    simp

theorem head_tail (marked : Bool) (mids : List Fragment) (last : Fragment)
    (rest : List WirePacket) :
    ∀ w ∈ (wireMarked a marked (Group.tailPackets header mids last) ++ rest).head?,
      w.Continues ∧ fuType w.packet.payload = header.toNat % 32 ∧ w.unit = a := by
  intro w hw
  cases mids with
  | nil =>
    simp only [Group.tailPackets, List.map_nil, List.nil_append, wireMarked, List.cons_append,
      List.head?_cons, Option.mem_def, Option.some.injEq] at hw
    subst hw
    exact ⟨continues_fragment _ _ _ _ _, fuType_fragment, rfl⟩
  | cons f mids =>
    simp only [Group.tailPackets, List.map_cons, List.cons_append, wireMarked,
      List.head?_cons, Option.mem_def, Option.some.injEq] at hw
    subst hw
    exact ⟨continues_fragment _ _ _ _ _, fuType_fragment, rfl⟩

/-- A fragment and the next one. -/
theorem follows_fragment {f : Fragment} {start stop marked : Bool} {ws : List WirePacket}
    (hopen : stop = false → ∀ w ∈ ws.head?,
      w.Continues ∧ fuType w.packet.payload = header.toNat % 32 ∧ w.unit = a)
    (hts : marked = true → ∀ w ∈ ws.head?, w.unit.ts ≠ a.ts) :
    ∀ w ∈ ws.head?, Follows ⟨a, f.packet header start stop, marked⟩ w := by
  intro w hw
  refine ⟨fun hleaves => ?_, fun hm => hts hm w hw⟩
  obtain ⟨hcont, htype, hunit⟩ := hopen (leavesOpen_fragment.1 hleaves) w hw
  exact ⟨hcont, htype.trans fuType_fragment.symm, by rw [hunit]⟩

theorem wellCut_tail (marked : Bool) (mids : List Fragment) (last : Fragment)
    {rest : List WirePacket} (hrest : WellCut rest)
    (hts : marked = true → ∀ w ∈ rest.head?, w.unit.ts ≠ a.ts) :
    WellCut (wireMarked a marked (Group.tailPackets header mids last) ++ rest) := by
  induction mids with
  | nil =>
    have hlast : Group.tailPackets header [] last = [last.packet header false true] := rfl
    rw [hlast, wireMarked, wireMarked, List.isEmpty_nil, Bool.and_true, List.cons_append,
      List.nil_append]
    refine ⟨fragment_payload_ne_nil, fun hopen => ?_, follows_fragment (by simp) hts, ?_, hrest⟩
    · exact absurd (leavesOpen_fragment.1 hopen) (by simp)
    · intro _ hstart
      rw [fuStart_fragment] at hstart
      exact absurd hstart (by simp)
  | cons f mids ih =>
    have hcons : Group.tailPackets header (f :: mids) last =
        f.packet header false false :: Group.tailPackets header mids last := rfl
    have hmore : (Group.tailPackets header mids last).isEmpty = false := by
      simp [Group.tailPackets]
    rw [hcons, wireMarked, hmore, Bool.and_false, List.cons_append]
    refine ⟨fragment_payload_ne_nil, fun _ => rfl,
      follows_fragment (fun _ => head_tail marked mids last rest) (by simp), ?_, ih⟩
    intro _ hstart
    rw [fuStart_fragment] at hstart
    exact absurd hstart (by simp)

/-- A packet without a fragment. -/
theorem wellCut_whole {p : Packet} {marked : Bool} (hne : p.payload ≠ [])
    (htype : nalType p.payload ≠ 28) {rest : List WirePacket} (hrest : WellCut rest)
    (hts : marked = true → ∀ w ∈ rest.head?, w.unit.ts ≠ a.ts) :
    WellCut (⟨a, p, marked⟩ :: rest) := by
  refine ⟨hne, fun hopen => absurd hopen.1 htype, fun w hw => ⟨fun hopen => ?_, fun hm => ?_⟩,
    fun h28 => absurd h28 htype, hrest⟩
  · exact absurd hopen.1 htype
  · exact hts hm w hw

theorem wellCut_group (marked : Bool) (g : Group)
    (hfits : g.isFuA = true → ∀ n ∈ g.nals, n.bytes.length ≤ fuSize) {rest : List WirePacket}
    (hrest : WellCut rest) (hts : marked = true → ∀ w ∈ rest.head?, w.unit.ts ≠ a.ts) :
    WellCut (wireMarked a marked g.packets ++ rest) := by
  cases g with
  | single e nal =>
    have htype : nalType nal.bytes ≠ 28 := by
      have hmem := nal.type_mem
      rw [nalType_bytes, Nal.type]
      omega
    rw [Group.packets, wireMarked, wireMarked, List.isEmpty_nil, Bool.and_true]
    exact wellCut_whole (by simp [Envelope.packet, Nal.bytes]) htype hrest hts
  | stapA e top nals short =>
    have htype : nalType (stapPayload top nals) ≠ 28 := by
      rw [nalType_stapA]
      decide
    rw [Group.packets, wireMarked, wireMarked, List.isEmpty_nil, Bool.and_true]
    exact wellCut_whole (by simp [Envelope.packet]) htype hrest hts
  | fuA header type_mem first mids last =>
    have hmore : (Group.tailPackets header mids last).isEmpty = false := by
      simp [Group.tailPackets]
    have hlen := hfits rfl _ (List.mem_singleton.2 rfl)
    rw [Group.packets, wireMarked, hmore, Bool.and_false, List.cons_append]
    refine ⟨fragment_payload_ne_nil, fun _ => rfl,
      follows_fragment (fun _ => head_tail marked mids last rest) (by simp), ?_,
      wellCut_tail marked mids last hrest hts⟩
    intro _ _
    refine ⟨fuEnd_fragment, ?_⟩
    rw [openLen_tail, drop_fragment]
    simp only [Nal.bytes, List.length_cons, List.length_append] at hlen ⊢
    omega

theorem wellCut_groups (gs : List Group)
    (hfits : ∀ g ∈ gs, g.isFuA = true → ∀ n ∈ g.nals, n.bytes.length ≤ fuSize)
    {rest : List WirePacket} (hrest : WellCut rest)
    (hts : ∀ w ∈ rest.head?, w.unit.ts ≠ a.ts) :
    WellCut (wireMarked a true (groupPackets gs) ++ rest) := by
  induction gs with
  | nil => exact hrest
  | cons g gs ih =>
    have hafter := ih fun x hx => hfits x (List.mem_cons_of_mem g hx)
    rw [groupPackets_cons, wireMarked_append, List.append_assoc]
    refine wellCut_group _ g (hfits g List.mem_cons_self) hafter ?_
    intro hlast w hw
    rw [Bool.true_and, List.isEmpty_iff] at hlast
    rw [hlast] at hw
    exact hts w hw

end Groups

/-! ## The packets of a sender -/

theorem head_unit {u : H264Unit} {rest : List WirePacket} :
    ∀ w ∈ (u.accessUnit.wire ++ rest).head?, w.unit = u.accessUnit := by
  intro w hw
  obtain ⟨p, ps, hps⟩ := List.exists_cons_of_ne_nil u.accessUnit.nonempty
  rw [AccessUnit.wire, hps, wirePackets_cons, List.cons_append, List.head?_cons, Option.mem_def,
    Option.some.injEq] at hw
  rw [← hw]

/-- What a sender sends, with a new timestamp for each unit, is well cut. -/
theorem wellCut_units (units : List H264Unit) (hts : units.IsChain fun u v => u.ts ≠ v.ts)
    (hfits : ∀ u ∈ units, FuFits u) : WellCut (h264Wire units) := by
  induction units with
  | nil => trivial
  | cons u units ih =>
    have hcons : h264Wire (u :: units) = u.accessUnit.wire ++ h264Wire units := by
      simp [h264Wire, wire]
    have hwire : u.accessUnit.wire = wireMarked u.accessUnit true (groupPackets u.groups) :=
      wirePackets_eq_wireMarked _ _
    rw [hcons, hwire]
    refine wellCut_groups u.groups (hfits u List.mem_cons_self)
      (ih hts.tail fun x hx => hfits x (List.mem_cons_of_mem u hx)) ?_
    intro w hw
    cases units with
    | nil => exact absurd hw (by simp [h264Wire, wire])
    | cons v units =>
      have hcons' : h264Wire (v :: units) = v.accessUnit.wire ++ h264Wire units := by
        simp [h264Wire, wire]
      rw [hcons'] at hw
      rw [head_unit w hw]
      exact (List.isChain_cons_cons.1 hts).1.symm

end Stream
end ToonVpu
