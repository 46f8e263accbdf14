import ToonVpu.Stream.H264Store

/-!
# H264Sender — how a sender puts H.264 access units into packets

An access unit is a list of NAL units.  The sender groups them: a NAL unit alone in a packet, some
NAL units together in a STAP-A packet, or one NAL unit cut into two or more FU-A packets.  The
network decides for each packet whether it arrives.  The second half reads the handlers' view of
such a packet back from its bytes.
-/

namespace ToonVpu
namespace Stream

open Foundation
open Lib

/-! ## NAL units and their packets -/

/-- A NAL unit that a packet can carry by itself. -/
structure Nal where
  header : UInt8
  body : List UInt8
  type_mem : 1 ≤ header.toNat % 32 ∧ header.toNat % 32 ≤ 23 := by decide
  deriving DecidableEq, Repr

namespace Nal

def bytes (n : Nal) : List UInt8 := n.header :: n.body

def type (n : Nal) : ℕ := n.header.toNat % 32

/-- Types 1 to 5. -/
def isSlice (n : Nal) : Bool := decide (n.type ≤ 5)

def isIdr (n : Nal) : Bool := decide (n.type = 5)

/-- What a handler that waits for an IDR slice lets through. -/
def passes (need : Bool) (n : Nal) : Bool :=
  !need || decide (n.type = 5 ∨ n.type = 7 ∨ n.type = 8)

end Nal

/-- The slices among some NAL units. -/
def slices (nals : List Nal) : List Nal := nals.filter Nal.isSlice

/-- Some NAL units as a handler puts them into an access unit. -/
def render (spspps : List UInt8) (nals : List Nal) : List UInt8 :=
  nals.flatMap fun n => pendOf spspps n.bytes ++ (startCode ++ n.bytes)

/-- What a handler emits at the end of a unit of which it kept some NAL units. -/
def emission (spspps : List UInt8) (kept : List Nal) : List (List UInt8) :=
  if kept = [] then [] else [render spspps kept]

/-- What a packet has besides its payload. -/
structure Envelope where
  header : RtpHeader := {}
  arrives : Bool := true
  deriving DecidableEq, Repr

def Envelope.packet (e : Envelope) (payload : List UInt8) : Packet := ⟨e.header, payload, e.arrives⟩

/-- A piece of a NAL unit. -/
structure Fragment where
  envelope : Envelope := {}
  data : List UInt8
  deriving DecidableEq, Repr

/-- The FU-A packet with a fragment of a NAL unit. -/
def Fragment.packet (header : UInt8) (start stop : Bool) (f : Fragment) : Packet :=
  f.envelope.packet
    ([UInt8.ofNat (header.toNat / 32 * 32 + 28),
      UInt8.ofNat ((if start then 128 else 0) + (if stop then 64 else 0) + header.toNat % 32)] ++
      f.data)

/-- One of the three packet forms. -/
inductive Group where
  | single (envelope : Envelope) (nal : Nal)
  /-- `top` is the upper three bits of the packet's first byte. -/
  | stapA (envelope : Envelope) (top : Fin 8) (nals : List Nal)
      (short : ∀ n ∈ nals, n.bytes.length < 65536)
  | fuA (header : UInt8) (type_mem : 1 ≤ header.toNat % 32 ∧ header.toNat % 32 ≤ 23)
      (first : Fragment) (mids : List Fragment) (last : Fragment)

namespace Group

/-- The fragments after the first one, as packets. -/
def tailPackets (header : UInt8) (mids : List Fragment) (last : Fragment) : List Packet :=
  mids.map (Fragment.packet header false false) ++ [last.packet header false true]

def packets : Group → List Packet
  | single e nal => [e.packet nal.bytes]
  | stapA e top nals _ =>
    [e.packet (UInt8.ofNat (top * 32 + 24) ::
      nals.flatMap fun n => be16 n.bytes.length ++ n.bytes)]
  | fuA header _ first mids last =>
    first.packet header true false :: tailPackets header mids last

def nals : Group → List Nal
  | single _ nal => [nal]
  | stapA _ _ nals _ => nals
  | fuA header type_mem first mids last =>
    [⟨header, first.data ++ (mids.flatMap Fragment.data ++ last.data), type_mem⟩]

/-- The NAL units that a handler keeps of a group; in FU-A packets it also drops parameter sets
while it waits. -/
def kept (need : Bool) : Group → List Nal
  | single e nal => (single e nal).nals.filter (Nal.passes need)
  | stapA e top nals short => (stapA e top nals short).nals.filter (Nal.passes need)
  | fuA header type_mem first mids last =>
    if need = true ∧ header.toNat % 32 ≠ 5 then []
    else (fuA header type_mem first mids last).nals

def isFuA : Group → Bool
  | fuA .. => true
  | _ => false

theorem packets_ne_nil (g : Group) : g.packets ≠ [] := by
  cases g <;> simp [packets]

theorem payload_ne_nil {g : Group} {p : Packet} (h : p ∈ g.packets) : p.payload ≠ [] := by
  cases g with
  | single e nal =>
    obtain rfl : p = e.packet nal.bytes := by simpa [packets] using h
    simp [Envelope.packet, Nal.bytes]
  | stapA e top nals short =>
    rw [packets, List.mem_singleton] at h
    rw [h]
    simp [Envelope.packet]
  | fuA header type_mem first mids last =>
    simp only [packets, tailPackets, List.mem_cons, List.mem_append, List.mem_map,
      List.not_mem_nil, or_false] at h
    obtain rfl | ⟨f, -, rfl⟩ | rfl := h <;> simp [Fragment.packet, Envelope.packet]

end Group

/-- All packets of some groups. -/
def groupPackets (gs : List Group) : List Packet := gs.flatMap Group.packets

/-- All NAL units of some groups. -/
def groupNals (gs : List Group) : List Nal := gs.flatMap Group.nals

/-- What a handler keeps of some groups. -/
def groupKept (need : Bool) (gs : List Group) : List Nal := gs.flatMap (Group.kept need)

/-- An H.264 access unit in packets. -/
structure H264Unit where
  ts : UInt32
  groups : List Group
  nonempty : groups ≠ [] := by simp

namespace H264Unit

def nals (u : H264Unit) : List Nal := groupNals u.groups

def accessUnit (u : H264Unit) : AccessUnit where
  ts := u.ts
  packets := groupPackets u.groups
  nonempty := by
    obtain ⟨g, gs, hgs⟩ := List.exists_cons_of_ne_nil u.nonempty
    simp [groupPackets, hgs, g.packets_ne_nil]

end H264Unit

/-- All packets of some H.264 units. -/
def h264Wire (units : List H264Unit) : List WirePacket := wire (units.map H264Unit.accessUnit)

theorem h264Wire_concat (units : List H264Unit) (u : H264Unit) :
    h264Wire (units ++ [u]) = h264Wire units ++ u.accessUnit.wire := by
  simp [h264Wire, wire]

theorem Group.kept_sublist (need : Bool) (g : Group) : (g.kept need).Sublist g.nals := by
  cases g with
  | single e nal => exact List.filter_sublist
  | stapA e top nals short => exact List.filter_sublist
  | fuA header type_mem first mids last =>
    rw [kept]
    split
    · exact List.nil_sublist _
    · exact List.Sublist.refl _

theorem groupKept_sublist (need : Bool) (gs : List Group) :
    (groupKept need gs).Sublist (groupNals gs) := by
  induction gs with
  | nil => exact List.Sublist.refl _
  | cons g gs ih =>
    simp only [groupKept, groupNals, List.flatMap_cons]
    exact (g.kept_sublist need).append ih

/-- Without waiting, everything is kept. -/
theorem groupKept_false (gs : List Group) : groupKept false gs = groupNals gs := by
  induction gs with
  | nil => rfl
  | cons g gs ih =>
    have hg : g.kept false = g.nals := by cases g <;> simp [Group.kept, Nal.passes]
    simp only [groupKept, groupNals, List.flatMap_cons] at ih ⊢
    rw [hg, ih]

theorem Group.kept_passes {g : Group} {n : Nal} (h : n ∈ g.kept true) :
    n.isIdr = true ∨ n.isSlice = false := by
  have hkeep : n.type = 5 ∨ n.type = 7 ∨ n.type = 8 → n.isIdr = true ∨ n.isSlice = false := by
    rintro (h5 | h7 | h8)
    · exact .inl (by simp [Nal.isIdr, h5])
    · exact .inr (by simp [Nal.isSlice, h7])
    · exact .inr (by simp [Nal.isSlice, h8])
  cases g with
  | single e nal =>
    simp only [kept, List.mem_filter, Nal.passes, Bool.not_true, Bool.false_or,
      decide_eq_true_eq] at h
    exact hkeep h.2
  | stapA e top nals short =>
    simp only [kept, List.mem_filter, Nal.passes, Bool.not_true, Bool.false_or,
      decide_eq_true_eq] at h
    exact hkeep h.2
  | fuA header type_mem first mids last =>
    rw [kept] at h
    split at h
    · exact absurd h List.not_mem_nil
    · rename_i hfive
      rw [nals, List.mem_singleton] at h
      refine hkeep (.inl ?_)
      rw [h]
      simpa [Nal.type] using hfive

/-- While a handler waits, IDR slices are the only slices it keeps. -/
theorem groupKept_passes {gs : List Group} {n : Nal} (h : n ∈ groupKept true gs) :
    n.isIdr = true ∨ n.isSlice = false := by
  obtain ⟨g, -, hn⟩ := List.mem_flatMap.1 h
  exact Group.kept_passes hn

theorem isSlice_of_isIdr {n : Nal} (h : n.isIdr = true) : n.isSlice = true := by
  simp only [Nal.isIdr, Nal.isSlice, decide_eq_true_eq] at h ⊢
  omega

theorem render_append (spspps : List UInt8) (xs ys : List Nal) :
    render spspps (xs ++ ys) = render spspps xs ++ render spspps ys :=
  List.flatMap_append

theorem render_eq_nil {spspps : List UInt8} {nals : List Nal} :
    render spspps nals = [] ↔ nals = [] := by
  cases nals with
  | nil => simp [render]
  | cons n nals => simp [render, startCode]

theorem slices_append (xs ys : List Nal) : slices (xs ++ ys) = slices xs ++ slices ys :=
  List.filter_append xs ys

theorem slices_groupNals_append (xs ys : List Group) :
    slices (groupNals (xs ++ ys)) = slices (groupNals xs) ++ slices (groupNals ys) := by
  rw [groupNals, List.flatMap_append]
  exact slices_append _ _

/-! ## Reading the packets back -/

theorem nalType_bytes (n : Nal) : nalType n.bytes = n.type := rfl

theorem byteAt_be16 {n : ℕ} (h : n < 65536) (xs : List UInt8) :
    byteAt (be16 n ++ xs) 0 * 256 + byteAt (be16 n ++ xs) 1 = n := by
  simp only [be16, byteAt, List.cons_append, List.getD_cons_zero, List.getD_cons_succ,
    UInt8.toNat_ofNat']
  omega

/-- The walk over a STAP-A packet finds the NAL units that were put into it. -/
theorem stapNals_encode (nals : List Nal) (short : ∀ n ∈ nals, n.bytes.length < 65536) :
    ∀ fuel, nals.length ≤ fuel →
      stapNals fuel (nals.flatMap fun n => be16 n.bytes.length ++ n.bytes) =
        nals.map Nal.bytes := by
  induction nals with
  | nil =>
    intro fuel _
    cases fuel <;> rfl
  | cons n nals ih =>
    intro fuel hfuel
    obtain ⟨fuel, rfl⟩ : ∃ k, fuel = k + 1 := ⟨fuel - 1, by simp at hfuel; omega⟩
    have hshort := short n List.mem_cons_self
    have hpos : n.bytes.length ≠ 0 := by simp [Nal.bytes]
    have hrest := ih (fun x hx => short x (List.mem_cons_of_mem n hx)) fuel
      (by simpa using hfuel)
    rw [List.flatMap_cons, List.append_assoc]
    have hcount := byteAt_be16 hshort
      (n.bytes ++ nals.flatMap fun n => be16 n.bytes.length ++ n.bytes)
    have hlen : ¬ (be16 n.bytes.length ++
        (n.bytes ++ nals.flatMap fun n => be16 n.bytes.length ++ n.bytes)).length < 2 := by
      simp [be16]
    have hdrop : (be16 n.bytes.length ++
        (n.bytes ++ nals.flatMap fun n => be16 n.bytes.length ++ n.bytes)).drop 2 =
        n.bytes ++ nals.flatMap fun n => be16 n.bytes.length ++ n.bytes :=
      List.drop_left' (length_be16 _)
    have hgo : ¬ (n.bytes.length = 0 ∨
        (n.bytes ++ nals.flatMap fun n => be16 n.bytes.length ++ n.bytes).length <
          n.bytes.length) := by
      rw [List.length_append]
      omega
    simp only [stapNals, if_neg hlen, hcount, hdrop, if_neg hgo, List.take_left, List.drop_left,
      hrest, List.map_cons]

section Fragments

variable {header : UInt8} {start stop : Bool} {f : Fragment}

theorem byteAt_fragment_zero :
    byteAt (f.packet header start stop).payload 0 = header.toNat / 32 * 32 + 28 := by
  have hlt := header.toNat_lt
  simp only [byteAt, Fragment.packet, Envelope.packet, List.cons_append, List.getD_cons_zero,
    UInt8.toNat_ofNat']
  omega

theorem byteAt_fragment_one :
    byteAt (f.packet header start stop).payload 1 =
      (if start then 128 else 0) + (if stop then 64 else 0) + header.toNat % 32 := by
  simp only [byteAt, Fragment.packet, Envelope.packet, List.cons_append, List.getD_cons_succ,
    List.getD_cons_zero, UInt8.toNat_ofNat']
  cases start <;> cases stop <;> simp <;> omega

@[simp] theorem nalType_fragment : nalType (f.packet header start stop).payload = 28 := by
  rw [nalType, byteAt_fragment_zero]
  omega

@[simp] theorem length_fragment :
    (f.packet header start stop).payload.length = 2 + f.data.length := by
  simp [Fragment.packet, Envelope.packet]
  omega

@[simp] theorem drop_fragment : (f.packet header start stop).payload.drop 2 = f.data := rfl

@[simp] theorem fuStart_fragment : fuStart (f.packet header start stop).payload = start := by
  rw [fuStart, byteAt_fragment_one]
  cases start <;> cases stop <;> simp <;> omega

@[simp] theorem fuEnd_fragment : fuEnd (f.packet header start stop).payload = stop := by
  rw [fuEnd, byteAt_fragment_one]
  cases start <;> cases stop <;> simp <;> omega

@[simp] theorem fuType_fragment :
    fuType (f.packet header start stop).payload = header.toNat % 32 := by
  rw [fuType, byteAt_fragment_one]
  cases start <;> cases stop <;> simp <;> omega

@[simp] theorem fuHdr_fragment : fuHdr (f.packet header start stop).payload = header := by
  have hlt := header.toNat_lt
  have hone : byteAt (f.packet header start stop).payload 1 % 32 = header.toNat % 32 :=
    fuType_fragment
  rw [fuHdr, byteAt_fragment_zero, hone, ← UInt8.toNat_inj, UInt8.toNat_ofNat']
  omega

end Fragments

end Stream
end ToonVpu
