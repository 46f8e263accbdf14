import Mathlib.Data.List.TakeWhile
import ToonVpu.Foundation.Pieces
import ToonVpu.Stream.RtspUrl

/-!
# RtspRead — responses on the RTSP connection (`rtsp_read_response` of `apps/vpu_stream.c`)

The camera sends its responses and interleaved frames of RTP on one connection, and every `read`
returns as much of it as has come.  `rtsp_read_response` reads a header block one byte at a time,
skips the frames before it, and reads the body that the header block announces.

* `rtspReadFull`, `rtspDiscardInterleaved`, `rtspReadResponse`: the code;
* `Interleaved`, `HeaderBlock`, `ContentLength`: what the camera sends;
* `rtsp_read_response_framing`: the reads end where the response ends, however it comes in.
-/

namespace ToonVpu
namespace Stream

open Foundation
open Foundation.Text

/-! ## Reading -/

/-- `rtsp_read_full`; `none` stands for `-1`. -/
def rtspReadFull (s : Source UInt8) (len : ℕ) : Option (List UInt8) × Source UInt8 :=
  s.readFull len

/-- The loop of `rtsp_discard_interleaved` with `len` bytes left. -/
def discardLoop : ℕ → Source UInt8 → ℕ → Bool × Source UInt8
  | 0, s, _ => (false, s)
  | fuel + 1, s, len =>
    if 0 < len then
      let chunk := if 512 < len then 512 else len
      match rtspReadFull s chunk with
      | (none, s) => (false, s)
      | (some _, s) => discardLoop fuel s (len - chunk)
    else
      (true, s)

/-- The length in the header of an interleaved frame. -/
def interleavedLen (hi lo : UInt8) : ℕ := hi.toNat * 256 + lo.toNat

/-- `rtsp_discard_interleaved`, behind the dollar sign. -/
def rtspDiscardInterleaved (s : Source UInt8) : Bool × Source UInt8 :=
  match rtspReadFull s 3 with
  | (none, s) => (false, s)
  | (some h, s) =>
    let len := interleavedLen (h.getD 1 0) (h.getD 2 0)
    discardLoop (len + 1) s len

/-- The end of a header block. -/
def crlf2 : List UInt8 := [13, 10, 13, 10]

/-- The loop that reads the header block; `hdr` are the `n` bytes so far. -/
def headerLoop (hdrMax : ℕ) : ℕ → Source UInt8 → List UInt8 → Bool × List UInt8 × Source UInt8
  | 0, s, hdr => (false, hdr, s)
  | fuel + 1, s, hdr =>
    if hdr.length < hdrMax - 1 then
      match s.read 1 with
      | ([], s) => (false, hdr, s)
      | (ch :: _, s) =>
        -- Interleaved packets come before a response, which begins with an R.
        if hdr.length = 0 ∧ ch = 36 then
          match rtspDiscardInterleaved s with
          | (false, s) => (false, hdr, s)
          | (true, s) => headerLoop hdrMax fuel s hdr
        else if hdr.length = 0 ∧ ch ≠ 82 then
          headerLoop hdrMax fuel s hdr
        else
          let hdr := hdr ++ [ch]
          if 4 ≤ hdr.length ∧ hdr.drop (hdr.length - 4) = crlf2 then
            (true, hdr, s)
          else
            headerLoop hdrMax fuel s hdr
    else
      (true, hdr, s)

/-- `Content-Length:`. -/
def lengthKey : List UInt8 := ascii "Content-Length:"

/-- `content_len`. -/
def contentLen (hdr : List UInt8) : ℤ :=
  match strcasestr hdr lengthKey with
  | none => 0
  | some p => atoi (p.drop 15)

/-- What `rtsp_read_response` returns and leaves in its two arrays. -/
structure RtspResponse where
  ok : Bool
  hdr : List UInt8
  body : List UInt8
  deriving DecidableEq, Repr

/-- `rtsp_read_response`.  The loop that reads the body is that of `rtsp_read_full`. -/
def rtspReadResponse (s : Source UInt8) (hdrMax bodyMax : ℕ) : RtspResponse × Source UInt8 :=
  match headerLoop hdrMax (s.rest.length + 1) s [] with
  | (false, hdr, s) => (⟨false, hdr, []⟩, s)
  | (true, hdr, s) =>
    let text := hdr.takeWhile (· ≠ 0)
    if bodyMax - 1 < contentLen text then
      (⟨false, hdr, []⟩, s)
    else
      match rtspReadFull s (contentLen text).toNat with
      | (none, s) => (⟨false, hdr, []⟩, s)
      | (some body, s) => (⟨(strstr text (ascii "RTSP/1.0 200")).isSome, hdr, body⟩, s)

/-! ## What the camera sends -/

/-- An interleaved frame. -/
structure Interleaved where
  channel : UInt8
  payload : List UInt8
  short : payload.length < 65536

/-- A dollar sign, the channel, the length in two bytes, and the payload. -/
def Interleaved.bytes (f : Interleaved) : List UInt8 :=
  36 :: f.channel :: UInt8.ofNat (f.payload.length / 256) ::
    UInt8.ofNat (f.payload.length % 256) :: f.payload

/-- A header block of less than `hdrMax` bytes. -/
structure HeaderBlock (hdr : List UInt8) (hdrMax : ℕ) : Prop where
  begins : hdr.head? = some 82
  noNul : 0 ∉ hdr
  ends : crlf2 <:+ hdr
  once : ∀ pre, pre <+: hdr → crlf2 <:+ pre → pre = hdr
  short : hdr.length < hdrMax

/-- There is no `Content-Length:` and no body; or there is one, with blanks and a number behind
it. -/
def ContentLength (hdr : List UInt8) (len : ℕ) : Prop :=
  ((∀ t, t <:+ hdr → beginsWith lengthKey t = false) ∧ len = 0) ∨
    ∃ t spaces number, t <:+ hdr ∧ beginsWith lengthKey t = true ∧
      (∀ u, u <:+ hdr → beginsWith lengthKey u = true → u = t) ∧
      t.drop 15 = spaces ++ number ∧ (∀ c ∈ spaces, isSpace c = true) ∧
      (∃ d ∈ number.head?, isDigit d = true) ∧ len = digitsValue number

/-! ## Interleaved frames -/

section Discard

variable {s : Source UInt8} {tail : List UInt8}

theorem rtspReadFull_append {front : List UInt8} (h : s.rest = front ++ tail) :
    ∃ s', rtspReadFull s front.length = (some front, s') ∧ s'.rest = tail := by
  obtain ⟨hres, hrest⟩ := Source.readFull_append h
  exact ⟨(s.readFull front.length).2, Prod.ext hres rfl, hrest⟩

/-- The payload is discarded in pieces of up to 512 bytes. -/
theorem discardLoop_append (fuel : ℕ) {payload : List UInt8} (h : s.rest = payload ++ tail)
    (hfuel : payload.length < fuel) :
    ∃ s', discardLoop fuel s payload.length = (true, s') ∧ s'.rest = tail := by
  induction fuel generalizing s payload with
  | zero => omega
  | succ fuel ih =>
    rw [discardLoop]
    by_cases hpos : 0 < payload.length
    · rw [if_pos hpos]
      simp only
      generalize hchunk : (if 512 < payload.length then 512 else payload.length) = chunk
      have hle : chunk ≤ payload.length := by
        rw [← hchunk]
        split <;> omega
      have hchunk0 : 0 < chunk := by
        rw [← hchunk]
        split <;> omega
      have hfront : s.rest = payload.take chunk ++ (payload.drop chunk ++ tail) := by
        rw [← List.append_assoc, List.take_append_drop, h]
      obtain ⟨s₁, hread, hrest⟩ := rtspReadFull_append hfront
      rw [List.length_take_of_le hle] at hread
      rw [hread]
      obtain ⟨s₂, hloop, htail⟩ := ih hrest (by rw [List.length_drop]; omega)
      rw [List.length_drop] at hloop
      exact ⟨s₂, hloop, htail⟩
    · have hnil : payload = [] := List.eq_nil_of_length_eq_zero (by omega)
      subst hnil
      exact ⟨s, if_neg hpos, h⟩

theorem interleavedLen_split {n : ℕ} (h : n < 65536) :
    interleavedLen (UInt8.ofNat (n / 256)) (UInt8.ofNat (n % 256)) = n := by
  unfold interleavedLen
  simp only [UInt8.toNat_ofNat']
  omega

/-- A frame is discarded whole. -/
theorem rtspDiscardInterleaved_frame (f : Interleaved) (h : s.rest = f.bytes.drop 1 ++ tail) :
    ∃ s', rtspDiscardInterleaved s = (true, s') ∧ s'.rest = tail := by
  have hhead : s.rest = [f.channel, UInt8.ofNat (f.payload.length / 256),
      UInt8.ofNat (f.payload.length % 256)] ++ (f.payload ++ tail) := h
  obtain ⟨s₁, hread, hrest⟩ := rtspReadFull_append hhead
  have hlen := interleavedLen_split f.short
  unfold rtspDiscardInterleaved
  rw [show (3 : ℕ) = [f.channel, UInt8.ofNat (f.payload.length / 256),
      UInt8.ofNat (f.payload.length % 256)].length from rfl, hread]
  simp only [List.getD_cons_succ, List.getD_cons_zero, hlen]
  exact discardLoop_append _ hrest (Nat.lt_succ_self _)

end Discard

/-! ## The header block -/

section Header

variable {s : Source UInt8} {hdr got more tail : List UInt8} {hdrMax : ℕ}

theorem read_one_cons {x : UInt8} {xs : List UInt8} (h : s.rest = x :: xs) :
    ∃ s', s.read 1 = ([x], s') ∧ s'.rest = xs := by
  obtain ⟨hres, hrest⟩ := Source.read_one_cons h
  exact ⟨(s.read 1).2, Prod.ext hres rfl, hrest⟩

theorem ends_iff : (4 ≤ got.length ∧ got.drop (got.length - 4) = crlf2) ↔ crlf2 <:+ got := by
  constructor
  · rintro ⟨-, h⟩
    exact h ▸ List.drop_suffix _ _
  · rintro h
    have hle := h.length_le
    exact ⟨hle, (List.suffix_iff_eq_drop.mp h).symm⟩

/-- The bytes of the block are read up to its end, which is where the empty line is first seen. -/
theorem headerLoop_block (h : HeaderBlock hdr hdrMax) (fuel : ℕ) (hsplit : got ++ more = hdr)
    (hmore : more ≠ []) (hrest : s.rest = more ++ tail) (hfuel : more.length < fuel) :
    ∃ s', headerLoop hdrMax fuel s got = (true, hdr, s') ∧ s'.rest = tail := by
  induction more generalizing s got fuel with
  | nil => exact absurd rfl hmore
  | cons ch more ih =>
    cases fuel with
    | zero => omega
    | succ fuel =>
      have hlen : got.length + (more.length + 1) = hdr.length := by
        rw [← hsplit, List.length_append, List.length_cons]
      have hroom : got.length < hdrMax - 1 := by
        have hshort := h.short
        omega
      obtain ⟨s₁, hread, hnext⟩ := read_one_cons hrest
      -- The first byte is the `R`, so that no byte is taken for a frame or skipped.
      have hfirst : got.length = 0 → ch = 82 := by
        intro hzero
        have hbegins := h.begins
        rw [← hsplit, List.eq_nil_of_length_eq_zero hzero] at hbegins
        exact Option.some.inj hbegins
      have hnoframe : ¬ (got.length = 0 ∧ ch = 36) := by
        rintro ⟨hzero, rfl⟩
        exact absurd (hfirst hzero) (by decide)
      have hnoskip : ¬ (got.length = 0 ∧ ch ≠ 82) := fun ⟨hzero, hne⟩ => hne (hfirst hzero)
      have hsplit' : got ++ [ch] ++ more = hdr := by
        rw [List.append_assoc]
        exact hsplit
      rw [headerLoop, if_pos hroom, hread]
      simp only [if_neg hnoframe, if_neg hnoskip, ends_iff]
      by_cases hend : crlf2 <:+ got ++ [ch]
      · have hall := h.once (got ++ [ch]) ⟨more, hsplit'⟩ hend
        rw [if_pos hend, hall]
        have hnil : more = [] := by
          rw [hall] at hsplit'
          simpa using hsplit'
        subst hnil
        exact ⟨s₁, rfl, hnext⟩
      · rw [if_neg hend]
        refine ih fuel hsplit' ?_ hnext (by rw [List.length_cons] at hfuel; omega)
        rintro rfl
        rw [List.append_nil] at hsplit'
        exact hend (hsplit' ▸ h.ends)

/-- The frames before the block leave nothing behind. -/
theorem headerLoop_frames (h : HeaderBlock hdr hdrMax) (frames : List Interleaved) (fuel : ℕ)
    (hrest : s.rest = frames.flatMap Interleaved.bytes ++ (hdr ++ tail))
    (hfuel : s.rest.length < fuel) :
    ∃ s', headerLoop hdrMax fuel s [] = (true, hdr, s') ∧ s'.rest = tail := by
  have hlong : 4 ≤ hdr.length := h.ends.length_le
  induction frames generalizing s fuel with
  | nil =>
    have hne : hdr ≠ [] := by
      rintro rfl
      simp at hlong
    rw [hrest, List.flatMap_nil, List.nil_append, List.length_append] at hfuel
    exact headerLoop_block h fuel rfl hne hrest (by omega)
  | cons f frames ih =>
    cases fuel with
    | zero => omega
    | succ fuel =>
      have hhead : s.rest = 36 ::
          (f.bytes.drop 1 ++ (frames.flatMap Interleaved.bytes ++ (hdr ++ tail))) := by
        rw [hrest, List.flatMap_cons, List.append_assoc]
        rfl
      have hroom : ([] : List UInt8).length < hdrMax - 1 := by
        have hshort := h.short
        rw [List.length_nil]
        omega
      obtain ⟨s₁, hread, hnext⟩ := read_one_cons hhead
      obtain ⟨s₂, hdiscard, hleft⟩ := rtspDiscardInterleaved_frame f hnext
      rw [headerLoop, if_pos hroom, hread]
      simp only
      rw [if_pos ⟨rfl, trivial⟩, hdiscard]
      refine ih fuel hleft ?_
      rw [hhead, List.length_cons, List.length_append] at hfuel
      rw [hleft]
      omega

end Header

/-! ## The body -/

section Body

variable {hdr body tail : List UInt8} {hdrMax bodyMax len : ℕ}

/-- A digit is no blank and no sign. -/
theorem digit_plain {d : UInt8} (h : isDigit d = true) : isSpace d = false ∧ d ≠ 45 ∧ d ≠ 43 := by
  simp only [isDigit, Bool.and_eq_true, decide_eq_true_eq, UInt8.le_iff_toNat_le] at h
  obtain ⟨hlo, hhi⟩ := h
  have h48 : (48 : UInt8).toNat = 48 := rfl
  have h57 : (57 : UInt8).toNat = 57 := rfl
  refine ⟨?_, ?_, ?_⟩
  · have h32 : d ≠ 32 := by
      rintro rfl
      exact absurd hlo (by decide)
    have h13 : ¬ d ≤ 13 := by
      rw [UInt8.le_iff_toNat_le]
      have : (13 : UInt8).toNat = 13 := rfl
      omega
    simp [isSpace, h32, h13]
  · rintro rfl
    exact absurd hlo (by decide)
  · rintro rfl
    exact absurd hlo (by decide)

/-- `atoi` skips the blanks and takes the number, when it is an `int`. -/
theorem atoi_number {spaces number : List UInt8} (hspaces : ∀ c ∈ spaces, isSpace c = true)
    (hdigit : ∃ d ∈ number.head?, isDigit d = true) (hfits : digitsValue number ≤ 2147483647) :
    atoi (spaces ++ number) = digitsValue number := by
  obtain ⟨d, hd, hdig⟩ := hdigit
  obtain ⟨rest, rfl⟩ : ∃ rest, number = d :: rest := by
    cases number with
    | nil => cases hd
    | cons x rest =>
      cases hd
      exact ⟨rest, rfl⟩
  obtain ⟨hnospace, hminus, hplus⟩ := digit_plain hdig
  have hskip : (spaces ++ d :: rest).dropWhile isSpace = d :: rest := by
    rw [List.dropWhile_append_of_pos hspaces, List.dropWhile_cons_of_neg (by simp [hnospace])]
  unfold atoi
  simp only [hskip, List.head?_cons, Option.some.injEq, if_neg hminus, if_neg hplus]
  omega

theorem contentLen_eq (h : ContentLength hdr len) (hfits : len ≤ 2147483647) :
    contentLen hdr = len := by
  unfold contentLen
  rcases h with ⟨hnone, rfl⟩ | ⟨t, spaces, number, hsuffix, hkey, honly, htext, hsp, hdig, rfl⟩
  · have hfind : strcasestr hdr lengthKey = none := firstSuffix_none.mpr hnone
    rw [hfind]
    rfl
  · have hfind : strcasestr hdr lengthKey = some t :=
      firstSuffix_longest.mpr ⟨hkey, hsuffix, fun u hu huk => (honly u hu huk ▸ le_rfl)⟩
    rw [hfind]
    simp only [htext]
    exact atoi_number hsp hdig hfits

/-- A response is read exactly, whatever frames come before it and however the bytes come in. -/
theorem rtsp_read_response_framing (frames : List Interleaved) (hhdr : HeaderBlock hdr hdrMax)
    (hlen : ContentLength hdr len) (hmax : len < bodyMax) (hint : bodyMax ≤ 2147483647)
    (hbody : body.length = len) (s : Source UInt8)
    (hs : s.rest = frames.flatMap Interleaved.bytes ++ hdr ++ body ++ tail) :
    let r := rtspReadResponse s hdrMax bodyMax
    r.1.hdr = hdr ∧ r.1.body = body ∧ r.2.rest = tail ∧
      (r.1.ok = true ↔ ascii "RTSP/1.0 200" <:+: hdr) := by
  have hstream : s.rest = frames.flatMap Interleaved.bytes ++ (hdr ++ (body ++ tail)) := by
    rw [hs]
    simp only [List.append_assoc]
  obtain ⟨s₁, hloop, hrest⟩ := headerLoop_frames hhdr frames _ hstream (Nat.lt_succ_self _)
  have htext : hdr.takeWhile (· ≠ 0) = hdr := by
    refine List.takeWhile_eq_self_iff.mpr fun c hc => ?_
    have hne : c ≠ 0 := fun h => hhdr.noNul (h ▸ hc)
    simpa using hne
  have hvalue : contentLen hdr = len := contentLen_eq hlen (by omega)
  obtain ⟨s₂, hread, hleft⟩ := rtspReadFull_append hrest
  rw [hbody] at hread
  have hfits : ¬ ((bodyMax : ℤ) - 1 < contentLen hdr) := by
    rw [hvalue]
    omega
  unfold rtspReadResponse
  rw [hloop]
  simp only [htext]
  rw [if_neg hfits, hvalue, Int.toNat_natCast, hread]
  exact ⟨rfl, rfl, hleft, strstr_isSome_iff⟩

/-- An early frame of two bytes, a response with a body of three, and the stream goes on; it comes
in pieces of one and two bytes. -/
theorem rtsp_read_response_early_frame :
    let hdr := ascii "RTSP/1.0 200 OK\r\nContent-Length: 3\r\n\r\n"
    let s : Source UInt8 := ⟨[36, 0, 0, 2, 7, 7] ++ hdr ++ [97, 98, 99] ++ [36],
      fun k => k % 3⟩
    let r := rtspReadResponse s 2048 4096
    r.1.hdr = hdr ∧ r.1.body = [97, 98, 99] ∧ r.2.rest = [36] ∧
      (r.1.ok = true ↔ ascii "RTSP/1.0 200" <:+: hdr) := by
  intro hdr s
  have honce : ∀ pre ∈ hdr.inits, crlf2 <:+ pre → pre = hdr := by decide +kernel
  have hhdr : HeaderBlock hdr 2048 :=
    { begins := by decide +kernel
      noNul := by decide +kernel
      ends := by decide +kernel
      once := fun pre hpre => honce pre ((List.mem_inits pre hdr).mpr hpre)
      short := by decide +kernel }
  have honly : ∀ u ∈ hdr.tails, beginsWith lengthKey u = true →
      u = ascii "Content-Length: 3\r\n\r\n" := by decide +kernel
  have hlen : ContentLength hdr 3 :=
    .inr ⟨ascii "Content-Length: 3\r\n\r\n", [32], ascii "3\r\n\r\n", by decide +kernel,
      by decide +kernel, fun u hu => honly u ((List.mem_tails u hdr).mpr hu), by decide +kernel,
      by decide +kernel, ⟨51, by decide +kernel, by decide⟩, by decide +kernel⟩
  exact rtsp_read_response_framing [⟨0, [7, 7], by decide⟩] hhdr hlen (by decide) (by decide)
    rfl s rfl

end Body

end Stream
end ToonVpu
