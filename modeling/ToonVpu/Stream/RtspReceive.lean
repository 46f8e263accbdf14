import ToonVpu.Stream.RtspRead

/-!
# RtspReceive — the receive loop of `rtsp_thread_main` (`apps/vpu_stream.c`)

Behind the response to PLAY the connection carries interleaved frames.  The loop looks for a dollar
sign, reads the other three bytes of the frame's header with one `read`, and its payload with as
many as it takes.  The frames of channel 0 go to `handle_rtp_h264`, whose state and result are a
parameter here.

Two runs over the same stream, in whatever pieces it comes, are the same run as long as no read of a
header comes back short (`rtsp_segmentation_iff`).
-/

namespace ToonVpu
namespace Stream

open Foundation

universe u

/-! ## The loop -/

/-- What a round of the loop comes to. -/
inductive RtspRound
  | stop
  | skip
  | packet (channel : UInt8) (pkt : List UInt8)
  deriving DecidableEq, Repr

/-- One round: a marker, the rest of the header, and the payload. -/
def rtspRound (s : Source UInt8) : RtspRound × Source UInt8 :=
  match s.read 1 with
  | ([], s) => (.stop, s)
  | (h0 :: _, s) =>
    if h0 ≠ 36 then
      (.skip, s)
    else
      match s.read 3 with
      | ([channel, hi, lo], s) =>
        let len := interleavedLen hi lo
        if len ≤ 0 ∨ 65536 < len then
          (.stop, s)
        else
          match s.readFull len with
          | (none, s) => (.stop, s)
          | (some pkt, s) => (.packet channel pkt, s)
      | (_, s) => (.stop, s)

/-- What a run delivers to `handle_rtp_h264`, the state that is left, and what is left of the
stream. -/
structure RtspRun (σ : Type u) where
  delivered : List (List UInt8)
  state : σ
  rest : List UInt8

section Loop

variable {σ : Type u} (handle : σ → List UInt8 → σ × Bool)

/-- The loop; `handle` returns the state and whether `handle_rtp_h264` succeeds. -/
def rtspLoop : ℕ → Source UInt8 → σ → RtspRun σ
  | 0, s, st => ⟨[], st, s.rest⟩
  | fuel + 1, s, st =>
    match rtspRound s with
    | (.stop, s) => ⟨[], st, s.rest⟩
    | (.skip, s) => rtspLoop fuel s st
    | (.packet channel pkt, s) =>
      if channel = 0 then
        match handle st pkt with
        | (st, false) => ⟨[pkt], st, s.rest⟩
        | (st, true) =>
          let run := rtspLoop fuel s st
          { run with delivered := pkt :: run.delivered }
      else
        rtspLoop fuel s st

/-- The loop on a whole stream; each round takes a byte of it. -/
def rtspReceive (s : Source UInt8) (st : σ) : RtspRun σ := rtspLoop handle (s.rest.length + 1) s st

/-! ## Short reads of a header -/

/-- The round reads a header and gets less of it than there is. -/
def shortHeader (s : Source UInt8) : Bool :=
  s.rest.head? = some 36 ∧ ((s.read 1).2.read 3).1.length < min 3 (s.rest.length - 1)

/-- Where the first short read of a header ends: how much of the stream is left then. -/
def shortAt : ℕ → Source UInt8 → σ → Option ℕ
  | 0, _, _ => none
  | fuel + 1, s, st =>
    if shortHeader s then
      some ((s.read 1).2.read 3).2.rest.length
    else
      match rtspRound s with
      | (.stop, _) => none
      | (.skip, s) => shortAt fuel s st
      | (.packet channel pkt, s) =>
        if channel = 0 then
          match handle st pkt with
          | (_, false) => none
          | (st, true) => shortAt fuel s st
        else
          shortAt fuel s st

/-- Where a run first gets a header in part, if it does. -/
def firstShortRead (s : Source UInt8) (st : σ) : Option ℕ :=
  shortAt handle (s.rest.length + 1) s st

end Loop

/-! ## A round -/

/-- What a round makes of a stream that comes in one piece. -/
def roundAt : List UInt8 → RtspRound × List UInt8
  | [] => (.stop, [])
  | h0 :: rest =>
    if h0 ≠ 36 then
      (.skip, rest)
    else
      match rest with
      | channel :: hi :: lo :: rest =>
        let len := interleavedLen hi lo
        if len ≤ 0 ∨ 65536 < len then (.stop, rest)
        else if len ≤ rest.length then (.packet channel (rest.take len), rest.drop len)
        else (.stop, [])
      | _ => (.stop, [])

section Round

variable {s : Source UInt8} {xs : List UInt8}

theorem rtspRound_nil (h : s.rest = []) : (rtspRound s).1 = .stop ∧ (rtspRound s).2.rest = [] := by
  obtain ⟨hres, hrest⟩ := Source.read_one_nil h
  have hread : s.read 1 = ([], (s.read 1).2) := Prod.ext hres rfl
  rw [rtspRound, hread]
  exact ⟨rfl, hrest⟩

/-- A header is read after its marker. -/
theorem read_header (h : s.rest = 36 :: xs) :
    ∃ piece s₁, (s.read 1).2.read 3 = (piece, s₁) ∧ piece ++ s₁.rest = xs ∧ piece.length ≤ 3 := by
  obtain ⟨s₀, hread, hrest⟩ := read_one_cons h
  refine ⟨(s₀.read 3).1, (s₀.read 3).2, by rw [hread], ?_, Source.read_length_le⟩
  rw [Source.read_fst_append, hrest]

theorem rtspRound_header {channel hi lo : UInt8} {s₁ : Source UInt8} (h : s.rest = 36 :: xs)
    (hread : (s.read 1).2.read 3 = ([channel, hi, lo], s₁)) :
    rtspRound s =
      if interleavedLen hi lo ≤ 0 ∨ 65536 < interleavedLen hi lo then
        (.stop, s₁)
      else
        match s₁.readFull (interleavedLen hi lo) with
        | (none, s) => (.stop, s)
        | (some pkt, s) => (.packet channel pkt, s) := by
  obtain ⟨s₀, hone, -⟩ := read_one_cons h
  rw [hone] at hread
  simp only [rtspRound, hone, hread, ne_eq, not_true_eq_false, if_false]

/-- A header that comes back short ends the loop. -/
theorem rtspRound_cut {piece : List UInt8} {s₁ : Source UInt8} (h : s.rest = 36 :: xs)
    (hread : (s.read 1).2.read 3 = (piece, s₁)) (hcut : piece.length < 3) :
    rtspRound s = (.stop, s₁) := by
  obtain ⟨s₀, hone, -⟩ := read_one_cons h
  rw [hone] at hread
  simp only [rtspRound, hone, hread, ne_eq, not_true_eq_false, if_false]
  match piece, hcut with
  | [], _ => rfl
  | [_], _ => rfl
  | [_, _], _ => rfl

theorem roundAt_cut (h : xs.length < 3) : roundAt (36 :: xs) = (.stop, []) := by
  match xs, h with
  | [], _ => rfl
  | [_], _ => rfl
  | [_, _], _ => rfl

theorem shortHeader_eq {piece : List UInt8} {s₁ : Source UInt8} (h : s.rest = 36 :: xs)
    (hread : (s.read 1).2.read 3 = (piece, s₁)) :
    shortHeader s = true ↔ piece.length < min 3 xs.length := by
  simp [shortHeader, h, hread]

/-- With the three bytes of every header, or all that is left of the stream, a round depends on the
stream alone. -/
theorem rtspRound_whole (h : shortHeader s = false) :
    (rtspRound s).1 = (roundAt s.rest).1 ∧ (rtspRound s).2.rest = (roundAt s.rest).2 := by
  cases hs : s.rest with
  | nil => exact rtspRound_nil hs
  | cons x xs =>
    -- A dollar sign begins a frame; any other byte is skipped.
    by_cases hx : x = 36
    · subst hx
      obtain ⟨piece, s₁, hread, rfl, hle⟩ := read_header hs
      have hlong : ¬ piece.length < min 3 (piece ++ s₁.rest).length := fun hlt => by
        rw [(shortHeader_eq hs hread).mpr hlt] at h
        cases h
      rw [List.length_append] at hlong
      by_cases hthree : piece.length = 3
      · obtain ⟨channel, hi, lo, rfl⟩ := List.length_eq_three.mp hthree
        rw [rtspRound_header hs hread]
        simp only [List.cons_append, List.nil_append, roundAt, ne_eq, not_true_eq_false, if_false]
        by_cases hbad : interleavedLen hi lo ≤ 0 ∨ 65536 < interleavedLen hi lo
        · rw [if_pos hbad, if_pos hbad]
          exact ⟨rfl, rfl⟩
        · rw [if_neg hbad, if_neg hbad]
          obtain ⟨hres, hrest⟩ := Source.readFull_eq s₁ (interleavedLen hi lo)
          rcases hfull : s₁.readFull (interleavedLen hi lo) with ⟨res, s₂⟩
          rw [hfull] at hres hrest
          by_cases hall : interleavedLen hi lo ≤ s₁.rest.length
          · rw [if_pos hall] at hres ⊢
            cases hres
            exact ⟨rfl, hrest⟩
          · rw [if_neg hall] at hres ⊢
            cases hres
            exact ⟨rfl, hrest.trans (List.drop_eq_nil_of_le (by omega))⟩
      · -- The stream ends inside the header.
        have hend : s₁.rest = [] := List.eq_nil_of_length_eq_zero (by omega)
        have hcut : (piece ++ s₁.rest).length < 3 := by
          rw [List.length_append, hend, List.length_nil]
          omega
        rw [rtspRound_cut hs hread (by omega), roundAt_cut hcut]
        exact ⟨rfl, hend⟩
    · obtain ⟨s₁, hread, hrest⟩ := read_one_cons hs
      rw [rtspRound, hread]
      simp only [roundAt, ne_eq, hx, not_false_eq_true, if_true]
      exact ⟨trivial, hrest⟩

theorem roundAt_marker_length (xs : List UInt8) :
    (roundAt (36 :: xs)).2.length ≤ xs.length - 3 := by
  by_cases hcut : xs.length < 3
  · rw [roundAt_cut hcut]
    exact Nat.zero_le _
  · match xs, hcut with
    | channel :: hi :: lo :: rest, _ =>
      simp only [roundAt, ne_eq, not_true_eq_false, if_false, List.length_cons]
      split
      · simp
      · split
        · rw [List.length_drop]
          omega
        · simp
    | [], h => exact absurd (by decide) h
    | [_], h => exact absurd (by simp) h
    | [_, _], h => exact absurd (by simp) h

theorem marker_of_short (h : shortHeader s = true) : ∃ xs, s.rest = 36 :: xs := by
  have hhead := (of_decide_eq_true h).1
  cases hs : s.rest with
  | nil =>
    rw [hs] at hhead
    cases hhead
  | cons x xs =>
    rw [hs] at hhead
    cases hhead
    exact ⟨xs, rfl⟩

/-- With less, the loop stops inside the header, where more of the stream is left than after the
round of the whole stream. -/
theorem rtspRound_short (h : shortHeader s = true) :
    (rtspRound s).1 = .stop ∧ (rtspRound s).2 = ((s.read 1).2.read 3).2 ∧
      (rtspRound s).2.rest <:+ s.rest ∧
      (roundAt s.rest).2.length < (rtspRound s).2.rest.length := by
  obtain ⟨xs, hs⟩ := marker_of_short h
  obtain ⟨piece, s₁, hread, rfl, hle⟩ := read_header hs
  have hlt := (shortHeader_eq hs hread).mp h
  rw [List.length_append] at hlt
  have hround := rtspRound_cut hs hread (by omega)
  have hlen := roundAt_marker_length (piece ++ s₁.rest)
  rw [List.length_append] at hlen
  rw [hround, hread, hs]
  refine ⟨rfl, rfl, ?_, ?_⟩
  · exact (List.suffix_append piece s₁.rest).trans (List.suffix_cons 36 _)
  · simp only
    omega

theorem roundAt_length (xs : List UInt8) : (roundAt xs).2.length ≤ xs.length - 1 := by
  cases xs with
  | nil => exact Nat.le_refl 0
  | cons x xs =>
    by_cases hx : x = 36
    · subst hx
      have hlen := roundAt_marker_length xs
      rw [List.length_cons]
      omega
    · simp [roundAt, hx]

/-- A round takes a byte, unless there is none. -/
theorem rtspRound_length (s : Source UInt8) : (rtspRound s).2.rest.length ≤ s.rest.length - 1 := by
  cases hshort : shortHeader s with
  | false =>
    rw [(rtspRound_whole hshort).2]
    exact roundAt_length s.rest
  | true =>
    obtain ⟨xs, hs⟩ := marker_of_short hshort
    obtain ⟨piece, s₁, hread, rfl, -⟩ := read_header hs
    have hlt := (shortHeader_eq hs hread).mp hshort
    rw [rtspRound_cut hs hread (by omega), hs, List.length_cons, List.length_append]
    simp only
    omega

end Round

/-! ## Two runs over one stream -/

section Runs

variable {σ : Type u} (handle : σ → List UInt8 → σ × Bool)

/-- Behind its first round a run only takes more. -/
theorem rtspLoop_after_round {fuel : ℕ} (s : Source UInt8) (st : σ)
    (h : ∀ s st, (rtspLoop handle fuel s st).rest.length ≤ s.rest.length) :
    (rtspLoop handle (fuel + 1) s st).rest.length ≤ (rtspRound s).2.rest.length := by
  rw [rtspLoop]
  rcases rtspRound s with ⟨round, s₁⟩
  cases round with
  | stop => exact le_rfl
  | skip => exact h s₁ st
  | packet channel pkt =>
    simp only
    split
    · rcases handle st pkt with ⟨st', ok⟩
      cases ok with
      | false => exact le_rfl
      | true => exact h s₁ st'
    · exact h s₁ st

theorem rtspLoop_length (fuel : ℕ) (s : Source UInt8) (st : σ) :
    (rtspLoop handle fuel s st).rest.length ≤ s.rest.length := by
  induction fuel generalizing s st with
  | zero => exact le_rfl
  | succ fuel ih =>
    calc (rtspLoop handle (fuel + 1) s st).rest.length
        ≤ (rtspRound s).2.rest.length := rtspLoop_after_round handle s st ih
      _ ≤ s.rest.length - 1 := rtspRound_length s
      _ ≤ s.rest.length := Nat.sub_le _ _

/-- So does its first short read. -/
theorem shortAt_after_round {fuel n : ℕ} (s : Source UInt8) (st : σ)
    (h : ∀ s st n, shortAt handle fuel s st = some n → n ≤ s.rest.length)
    (hn : shortAt handle (fuel + 1) s st = some n) : n ≤ (rtspRound s).2.rest.length := by
  rw [shortAt] at hn
  by_cases hshort : shortHeader s = true
  · rw [if_pos hshort, ← (rtspRound_short hshort).2.1] at hn
    cases hn
    exact le_rfl
  · rw [if_neg hshort] at hn
    generalize rtspRound s = res at hn ⊢
    rcases res with ⟨round, s₁⟩
    cases round with
    | stop => cases hn
    | skip => exact h s₁ st n hn
    | packet channel pkt =>
      simp only at hn
      split at hn
      · rcases hhandle : handle st pkt with ⟨st', ok⟩
        rw [hhandle] at hn
        cases ok with
        | false => cases hn
        | true => exact h s₁ st' n hn
      · exact h s₁ st n hn

theorem shortAt_length (fuel : ℕ) (s : Source UInt8) (st : σ) (n : ℕ)
    (h : shortAt handle fuel s st = some n) : n ≤ s.rest.length := by
  induction fuel generalizing s st n with
  | zero => cases h
  | succ fuel ih =>
    calc n ≤ (rtspRound s).2.rest.length := shortAt_after_round handle s st ih h
      _ ≤ s.rest.length - 1 := rtspRound_length s
      _ ≤ s.rest.length := Nat.sub_le _ _

/-- A round takes a byte, so that more rounds than there are bytes change nothing. -/
theorem rtspLoop_fuel (fuel fuel' : ℕ) (s : Source UInt8) (st : σ) (h : s.rest.length < fuel)
    (h' : s.rest.length < fuel') : rtspLoop handle fuel s st = rtspLoop handle fuel' s st := by
  induction fuel generalizing fuel' s st with
  | zero => omega
  | succ fuel ih =>
    cases fuel' with
    | zero => omega
    | succ fuel' =>
      have hround := rtspRound_length s
      have hend := fun hnil => (rtspRound_nil (s := s) hnil).1
      rw [rtspLoop, rtspLoop]
      generalize rtspRound s = res at hround hend ⊢
      rcases res with ⟨round, s₁⟩
      simp only at hround hend
      by_cases hnil : s.rest = []
      · rw [hend hnil]
      · have hpos := List.length_pos_of_ne_nil hnil
        have hsame : ∀ st, rtspLoop handle fuel s₁ st = rtspLoop handle fuel' s₁ st :=
          fun st => ih fuel' s₁ st (by omega) (by omega)
        cases round with
        | stop => rfl
        | skip => exact hsame st
        | packet channel pkt => simp only [hsame]

/-- A run that gets a header in part stops before the runs that get it whole. -/
theorem rtspLoop_short {s t : Source UInt8} (fuel : ℕ) (st : σ) (hst : s.rest = t.rest)
    (hs : shortHeader s = true) (ht : shortHeader t = false) :
    (rtspLoop handle (fuel + 1) s st).rest ≠ (rtspLoop handle (fuel + 1) t st).rest ∧
      shortAt handle (fuel + 1) s st ≠ shortAt handle (fuel + 1) t st := by
  obtain ⟨hstop, hread, -, hlong⟩ := rtspRound_short hs
  rw [hst, ← (rtspRound_whole ht).2] at hlong
  have hrest : (rtspLoop handle (fuel + 1) s st).rest = (rtspRound s).2.rest := by
    rw [rtspLoop]
    generalize rtspRound s = res at hstop
    rcases res with ⟨round, s₁⟩
    cases hstop
    rfl
  have hat : shortAt handle (fuel + 1) s st = some (rtspRound s).2.rest.length := by
    rw [shortAt, if_pos hs, hread]
  constructor
  · intro heq
    have hle := rtspLoop_after_round handle t st (rtspLoop_length handle fuel)
    rw [← heq, hrest] at hle
    omega
  · intro heq
    have hle := shortAt_after_round handle t st (shortAt_length handle fuel) (heq.symm.trans hat)
    omega

/-- Two runs over one stream are the same run when they first get a header in part at the same
byte, or never. -/
theorem rtspLoop_same_iff (fuel : ℕ) {s t : Source UInt8} (st : σ) (hst : s.rest = t.rest) :
    ((rtspLoop handle fuel s st).delivered = (rtspLoop handle fuel t st).delivered ∧
        (rtspLoop handle fuel s st).rest = (rtspLoop handle fuel t st).rest) ↔
      shortAt handle fuel s st = shortAt handle fuel t st := by
  induction fuel generalizing s t st with
  | zero => exact iff_of_true ⟨rfl, hst⟩ rfl
  | succ fuel ih =>
    cases hs : shortHeader s with
    | true =>
      cases ht : shortHeader t with
      | true =>
        -- Both stop inside the header, with nothing delivered.
        obtain ⟨hstop, hread, hsuffix, -⟩ := rtspRound_short hs
        obtain ⟨hstop', hread', hsuffix', -⟩ := rtspRound_short ht
        rw [← hst] at hsuffix'
        rw [shortAt, if_pos hs, shortAt, if_pos ht, ← hread, ← hread', Option.some.injEq,
          rtspLoop, rtspLoop]
        generalize rtspRound s = res at hstop hsuffix ⊢
        generalize rtspRound t = res' at hstop' hsuffix' ⊢
        rcases res with ⟨round, s₁⟩
        rcases res' with ⟨round', t₁⟩
        cases hstop
        cases hstop'
        simp only [true_and]
        constructor
        · exact fun h => congrArg List.length h
        · intro h
          exact (List.suffix_of_suffix_length_le hsuffix hsuffix' h.le).eq_of_length h
      | false =>
        obtain ⟨hrest, hat⟩ := rtspLoop_short handle fuel st hst hs ht
        exact iff_of_false (fun h => hrest h.2) hat
    | false =>
      cases ht : shortHeader t with
      | true =>
        obtain ⟨hrest, hat⟩ := rtspLoop_short handle fuel st hst.symm ht hs
        exact iff_of_false (fun h => hrest h.2.symm) (fun h => hat h.symm)
      | false =>
        -- The round is the same in both.
        obtain ⟨hround, hleft⟩ := rtspRound_whole hs
        obtain ⟨hround', hleft'⟩ := rtspRound_whole ht
        rw [hst, ← hround'] at hround
        rw [hst, ← hleft'] at hleft
        rw [shortAt, shortAt, rtspLoop, rtspLoop, hs, ht]
        generalize rtspRound s = res at hround hleft ⊢
        generalize rtspRound t = res' at hround hleft ⊢
        rcases res with ⟨round, s₁⟩
        rcases res' with ⟨round', t₁⟩
        simp only at hround hleft
        subst hround
        cases round with
        | stop => exact iff_of_true ⟨rfl, hleft⟩ rfl
        | skip => exact ih st hleft
        | packet channel pkt =>
          simp only [Bool.false_eq_true, if_false]
          split
          · rcases handle st pkt with ⟨st', ok⟩
            cases ok with
            | false => exact iff_of_true ⟨rfl, hleft⟩ rfl
            | true =>
              simp only [List.cons.injEq, true_and]
              exact ih st' hleft
          · exact ih st hleft

/-- The runs over a stream in two ways of splitting it deliver the same packets and stop at the same
byte exactly when the first header that a read returns in part, if there is one, is cut off at the
same byte in both. -/
theorem rtsp_segmentation_iff (stream : List UInt8) (pieces pieces' : ℕ → ℕ) (st : σ) :
    ((rtspReceive handle ⟨stream, pieces⟩ st).delivered =
          (rtspReceive handle ⟨stream, pieces'⟩ st).delivered ∧
        (rtspReceive handle ⟨stream, pieces⟩ st).rest =
          (rtspReceive handle ⟨stream, pieces'⟩ st).rest) ↔
      firstShortRead handle ⟨stream, pieces⟩ st = firstShortRead handle ⟨stream, pieces'⟩ st :=
  rtspLoop_same_iff handle (stream.length + 1) st rfl

/-- A frame of one byte in pieces of four bytes and of one: the packet is delivered, or the loop
ends at its header. -/
theorem rtsp_segmentation_bytewise :
    let handle : Unit → List UInt8 → Unit × Bool := fun _ _ => ((), true)
    let whole := rtspReceive handle ⟨[36, 0, 0, 1, 7], fun _ => 4⟩ ()
    let bytewise := rtspReceive handle ⟨[36, 0, 0, 1, 7], fun _ => 1⟩ ()
    whole.delivered = [[7]] ∧ whole.rest = [] ∧
      bytewise.delivered = [] ∧ bytewise.rest = [0, 1, 7] := by
  refine ⟨?_, ?_, ?_, ?_⟩ <;> decide +kernel

end Runs

end Stream
end ToonVpu
