import ToonVpu.Stream.H264Loss
import ToonVpu.Stream.H264Room

/-!
# H264Lossless — depacketization undoes packetization

When no packet is lost and every access unit fits, both H.264 handlers emit what the sender put
into packets: all NAL units in order, each behind a start code.  This holds however the units were
cut into packets, and for every hardware schedule of the ring.
-/

namespace ToonVpu
namespace Stream

open Foundation
open Lib

/-! ## Statement -/

/-- The byte stream of some access units: each NAL unit behind a start code. -/
def byteStream (units : List H264Unit) : List UInt8 :=
  (units.flatMap H264Unit.nals).flatMap fun n => startCode ++ n.bytes

/-- Every packet of the unit arrives. -/
def Arrives (u : H264Unit) : Prop := ∀ p ∈ groupPackets u.groups, p.arrives = true

/-- The unit fits into `au`, and its fragmented NAL units into `fu`. -/
def BufferFits (spspps : List UInt8) (u : H264Unit) : Prop :=
  FuFits u ∧ (render spspps u.nals).length ≤ auSize

/-! ## Runs without losses -/

/-- A receiver between two units, from which nothing was lost so far. -/
structure Lossless {α : Type*} (V : StoreView α) (l : Link α) : Prop where
  boundary : Boundary V l
  lost : l.lost = none ∨ l.lost = some 0
  bad : l.st.auBad = false
  need : l.st.needIdr = false

section Lossless

variable {α : Type*} {S : AuStore α} {spspps : List UInt8} {silent : Bool} {V : StoreView α}
  {l : Link α} {a : AccessUnit}

theorem Lossless.gap (h : Lossless V l) : l.gap = false := by
  rcases h.lost with hlost | hlost <;> simp [Link.gap, gapSeen, hlost]

theorem Lossless.raw (law : StoreLaw S spspps silent V) (h : Lossless V l) :
    V.Raw l.out l.st [] := by
  obtain ⟨b, hraw, hnil⟩ := h.boundary.raw
  rcases h.lost with hnone | hzero
  · exact law.raw_nil hraw (h.boundary.fresh hnone).1
  · rcases hnil hzero with rfl | hbad
    · exact hraw
    · exact absurd (hbad.symm.trans h.bad) (by simp)

/-- The prologue finds nothing open. -/
theorem Lossless.entered (law : StoreLaw S spspps silent V) (h : Lossless V l) :
    (l.entered a).auBad = false ∧ (l.entered a).needIdr = false ∧
      V.Raw l.out (l.entered a) [] := by
  have hraw := h.raw law
  have hgap := h.gap
  have hneed : l.checked.needIdr = false := by simp [Link.checked, h.need, hgap]
  rcases l.entered_cases a with ⟨-, -, heq⟩ | ⟨-, -, hpos, -⟩ | ⟨-, heq⟩
  · rw [heq]
    exact ⟨by simp [h.bad, hgap], hneed, law.raw_of hraw rfl rfl⟩
  · rw [law.raw_len hraw] at hpos
    exact absurd hpos (Nat.lt_irrefl 0)
  · rw [heq]
    exact ⟨h.bad, hneed, law.raw_of hraw rfl rfl⟩

/-- One unit after another. -/
theorem run_lossless {P : Link α → List H264Unit → Prop} (law : StoreLaw S spspps silent V)
    (hstep : ∀ l u us, P l (u :: us) → Lossless V l →
      Ended V spspps l.out (l.entered u.accessUnit)
          (groupKept (l.entered u.accessUnit).needIdr u.groups)
          (l.run (h264Handler S spspps) u.accessUnit.wire) ∧
        P (l.run (h264Handler S spspps) u.accessUnit.wire) us) (units : List H264Unit) :
    ∀ {l : Link α}, P l units → Lossless V l →
      V.emitted (l.run (h264Handler S spspps) (h264Wire units)).out =
        V.emitted l.out ++ units.flatMap fun u => emission spspps u.nals := by
  induction units with
  | nil =>
    intro l _ _
    simp [h264Wire, wire]
  | cons u us ih =>
    intro l hP h
    obtain ⟨hended, hP'⟩ := hstep l u us hP h
    have hneed := (h.entered law (a := u.accessUnit)).2.1
    rw [hneed, groupKept_false] at hended
    have hnext : Lossless V (l.run (h264Handler S spspps) u.accessUnit.wire) :=
      ⟨hended.boundary, .inr hended.lost, hended.bad, by rw [hended.need, hneed]; rfl⟩
    have hcons : h264Wire (u :: us) = u.accessUnit.wire ++ h264Wire us := by
      simp [h264Wire, wire]
    rw [hcons, Link.run_append, ih hP' hnext, hended.emitted, List.flatMap_cons,
      List.append_assoc]
    rfl

end Lossless

/-- Whether the ring has room for each packet can be computed. -/
instance decidableRoomy (bs : BitstreamMem) (spspps : List UInt8) :
    ∀ (l : Link Decoder) (ws : List WirePacket),
      Decidable (Roomy (directView bs spspps) directStore spspps l ws)
  | _, [] => .isTrue trivial
  | l, w :: ws =>
    have := decidableRoomy bs spspps (l.send (h264Handler directStore spspps) w) ws
    inferInstanceAs (Decidable
      ((w.packet.arrives = true → l.out.unread + (l.entered w.unit).auLen +
          (added spspps l.gap (l.entered w.unit).needIdr w.packet.payload).length + 512 <
            streamBufSize - 1) ∧
        Roomy (directView bs spspps) directStore spspps
          (l.send (h264Handler directStore spspps) w) ws))

/-- The bytes of all emissions. -/
theorem flatten_emissions (units : List H264Unit) :
    (units.flatMap fun u => emission [] u.nals).flatten = byteStream units := by
  have hrender : ∀ nals, render [] nals = nals.flatMap fun n => startCode ++ n.bytes := by
    intro nals
    simp [render, pendOf]
  have hone : ∀ nals, (emission [] nals).flatten = nals.flatMap fun n => startCode ++ n.bytes := by
    intro nals
    unfold emission
    split
    · rename_i hnil
      simp [hnil]
    · simp [hrender]
  induction units with
  | nil => rfl
  | cons u us ih =>
    rw [List.flatMap_cons, List.flatten_append, ih, hone, byteStream, byteStream,
      List.flatMap_cons, List.flatMap_append]

/-! ## The two handlers -/

/-- `handle_rtp_h264` writes each access unit as it was sent. -/
theorem buffered_lossless (spspps : List UInt8) (units : List H264Unit) (first : ℕ)
    (harr : ∀ u ∈ units, Arrives u) (hfits : ∀ u ∈ units, BufferFits spspps u) :
    ((bufferedStart first).run (handleRtpH264 spspps) (h264Wire units)).out =
      units.flatMap fun u => emission spspps u.nals := by
  refine run_lossless (P := fun _ us => ∀ u ∈ us, Arrives u ∧ BufferFits spspps u)
    (bufferedLaw spspps) ?_ units (fun u hu => ⟨harr u hu, hfits u hu⟩)
    ⟨.buffered spspps first, .inl rfl, rfl, rfl⟩
  intro l u us hP h
  obtain ⟨harrU, hfu, hsize⟩ := hP u List.mem_cons_self
  obtain ⟨hclean, -, hraw⟩ := h.entered (bufferedLaw spspps)
  exact ⟨unit_taken_buffered u h.boundary.seq hclean hraw harrU (fun _ _ _ _ => h.gap) hfu hsize,
    fun x hx => hP x (List.mem_cons_of_mem u hx)⟩

/-- `handle_rtp_h264_direct` commits each access unit as it was sent. -/
theorem direct_lossless (bs : BitstreamMem) (spspps : List UInt8) (units : List H264Unit)
    (first : ℕ) (mem : ℕ → UInt8) (sched : List ℕ) (harr : ∀ u ∈ units, Arrives u)
    (hroom : Roomy (directView bs spspps) directStore spspps (directStart bs mem sched first)
      (h264Wire units)) :
    committed ((directStart bs mem sched first).run (handleRtpH264Direct spspps)
      (h264Wire units)).out = units.flatMap fun u => emission spspps u.nals := by
  refine run_lossless (P := fun l us => (∀ u ∈ us, Arrives u) ∧
    Roomy (directView bs spspps) directStore spspps l (h264Wire us)) (directLaw bs spspps) ?_ units
    ⟨harr, hroom⟩ ⟨.direct bs spspps mem sched first, .inl rfl, rfl, rfl⟩
  intro l u us hP h
  obtain ⟨harrA, hroomy⟩ := hP
  have hcons : h264Wire (u :: us) = u.accessUnit.wire ++ h264Wire us := by simp [h264Wire, wire]
  rw [hcons, roomy_append] at hroomy
  obtain ⟨hclean, -, hraw⟩ := h.entered (directLaw bs spspps)
  refine ⟨?_, fun x hx => harrA x (List.mem_cons_of_mem u hx), hroomy.2⟩
  exact unit_taken_of_roomy (directLaw bs spspps) u h.boundary.seq hclean hraw
    (harrA u List.mem_cons_self) (fun _ _ _ _ => h.gap) (fun _ _ _ _ _ => trivial) hroomy.1

/-- Without losses, and with every unit within the limits, both handlers emit exactly the NAL units
that were sent, in order, each behind a start code. -/
theorem depacketization_undoes_packetization (units : List H264Unit) (first : ℕ)
    (harr : ∀ u ∈ units, Arrives u) :
    ((∀ u ∈ units, BufferFits [] u) →
        ((bufferedStart first).run (handleRtpH264 []) (h264Wire units)).out.flatten =
          byteStream units) ∧
      ∀ (bs : BitstreamMem) (mem : ℕ → UInt8) (sched : List ℕ),
        Roomy (directView bs []) directStore [] (directStart bs mem sched first)
          (h264Wire units) →
        (committed ((directStart bs mem sched first).run (handleRtpH264Direct [])
          (h264Wire units)).out).flatten = byteStream units := by
  constructor
  · intro hfits
    rw [buffered_lossless [] units first harr hfits, flatten_emissions]
  · intro bs mem sched hroom
    rw [direct_lossless bs [] units first mem sched harr hroom, flatten_emissions]

/-- Parameter sets in a STAP-A packet, an IDR slice in three fragments, and a P slice behind a long
header; the sequence number wraps. -/
theorem depacketization_undoes_packetization_mixed :
    ∃ units : List H264Unit,
      ((bufferedStart 65534).run (handleRtpH264 []) (h264Wire units)).out.flatten =
          byteStream units ∧
        (committed ((directStart ⟨4096, by decide⟩ (fun _ => 0) [3, 1] 65534).run
          (handleRtpH264Direct []) (h264Wire units)).out).flatten = byteStream units ∧
        byteStream units = [0, 0, 0, 1, 0x67, 1, 0, 0, 0, 1, 0x68, 2, 0, 0, 0, 1, 0x65, 3, 4, 5,
          0, 0, 0, 1, 0x41, 6] := by
  let u : H264Unit :=
    { ts := 1
      groups := [.stapA {} 3 [⟨0x67, [1], by decide⟩, ⟨0x68, [2], by decide⟩] (by decide),
        .fuA 0x65 (by decide) { data := [3] } [{ data := [4] }] { data := [5] }] }
  let v : H264Unit :=
    { ts := 2
      groups := [.single
        { header := { csrc := [7, 8], extension := some (1, [9]), extension_lt := by simp } }
        ⟨0x41, [6], by decide⟩] }
  have harr : ∀ x ∈ [u, v], Arrives x := by
    unfold Arrives
    decide
  have hfits : ∀ x ∈ [u, v], BufferFits [] x := by
    unfold BufferFits FuFits
    decide
  have hboth := depacketization_undoes_packetization [u, v] 65534 harr
  refine ⟨[u, v], hboth.1 hfits, hboth.2 ⟨4096, by decide⟩ (fun _ => 0) [3, 1] ?_, by decide⟩
  decide +kernel

end Stream
end ToonVpu
