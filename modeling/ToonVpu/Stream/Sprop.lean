import Mathlib.Algebra.Group.Nat.Defs
import ToonVpu.Foundation.Text
import ToonVpu.Stream.Rtp

/-!
# Sprop — the two decoders of `sprop-parameter-sets` (`apps/vpu_stream.c`)

The parameter sets of a stream are two Base64 texts with a comma between them.  `parse_h264_sprop`
decodes them from an argument of the program and `sdp_parse_h264` from the text of a session
description, where the value ends at a semicolon or at the end of its line.
-/

namespace ToonVpu
namespace Stream

open Foundation
open Foundation.Text

/-! ## Base64 -/

/-- `b64_value`; `none` stands for `-1`. -/
def b64Value (c : UInt8) : Option ℕ :=
  if 65 ≤ c ∧ c ≤ 90 then some (c.toNat - 65)
  else if 97 ≤ c ∧ c ≤ 122 then some (c.toNat - 97 + 26)
  else if 48 ≤ c ∧ c ≤ 57 then some (c.toNat - 48 + 52)
  else if c = 43 then some 62
  else if c = 47 then some 63
  else none

/-- The characters that `b64_decode` ends at: comma, semicolon, carriage return, line feed and
`=`. -/
def b64Stop (c : UInt8) : Bool := c = 44 ∨ c = 59 ∨ c = 13 ∨ c = 10 ∨ c = 61

/-- The loop of `b64_decode` on `val`, `valb` and the bytes in `out`.  `val` keeps its low 32 bits,
and only the low 14 of them are ever used. -/
def b64Loop (outMax : ℕ) : List UInt8 → ℕ → ℤ → List UInt8 → Option (List UInt8)
  | [], _, _, out => some out
  | c :: rest, val, valb, out =>
    if b64Stop c then
      some out
    else
      match b64Value c with
      | none => b64Loop outMax rest val valb out
      | some d =>
        let val := (val <<< 6 ||| d) % 2 ^ 32
        let valb := valb + 6
        if 0 ≤ valb then
          if outMax ≤ out.length then
            none
          else
            b64Loop outMax rest val (valb - 8) (out ++ [UInt8.ofNat (val >>> valb.toNat)])
        else
          b64Loop outMax rest val valb out

/-- `b64_decode`; `none` stands for `-1`. -/
def b64Decode (text : List UInt8) (outMax : ℕ) : Option (List UInt8) :=
  b64Loop outMax text 0 (-8) []

/-! ## The decoders -/

/-- A parameter set goes behind the ones in `spspps` when it was decoded and there is room. -/
def appendSet (spspps : List UInt8) (set : Option (List UInt8)) : List UInt8 :=
  match set with
  | none => spspps
  | some tmp =>
    if 0 < tmp.length ∧ spspps.length + tmp.length + 4 < 512 then
      spspps ++ startCode ++ tmp
    else
      spspps

/-- `sprop-parameter-sets=`. -/
def spropKey : List UInt8 := ascii "sprop-parameter-sets="

/-- `spspps` after `sdp_parse_h264`. -/
def sdpSpspps (sdp : List UInt8) : List UInt8 :=
  match strstr sdp spropKey with
  | none => []
  | some p =>
    let p := p.drop 21
    let spspps := appendSet [] (b64Decode p 256)
    match strchr p 44 with
    | none => spspps
    | some comma => appendSet spspps (b64Decode (comma.drop 1) 256)

/-- What `parse_h264_sprop` returns: whether it accepts, and what it wrote to `spspps`. -/
structure SpropResult where
  accepted : Bool
  spspps : List UInt8
  deriving DecidableEq, Repr

/-- The loop of `parse_h264_sprop`; each round increases `count`, so that two are enough. -/
def spropLoop : ℕ → ℕ → List UInt8 → List UInt8 → SpropResult
  | 0, count, _, spspps => ⟨1 ≤ count, spspps⟩
  | fuel + 1, count, p, spspps =>
    if p ≠ [] ∧ count < 2 then
      match b64Decode p 256 with
      | none => ⟨false, spspps⟩
      | some tmp =>
        let nalType := tmp.headD 0 &&& 0x1f
        if tmp.length = 0 ∨ 512 ≤ spspps.length + tmp.length + 4 then
          ⟨false, spspps⟩
        -- The first set is an SPS and the second a PPS.
        else if (count = 0 ∧ nalType ≠ 7) ∨ (count = 1 ∧ nalType ≠ 8) then
          ⟨false, spspps⟩
        else
          let spspps := spspps ++ startCode ++ tmp
          match strchr p 44 with
          | none => ⟨true, spspps⟩
          | some e => spropLoop fuel (count + 1) (e.drop 1) spspps
    else
      ⟨1 ≤ count, spspps⟩

def parseH264Sprop (sprop : List UInt8) : SpropResult := spropLoop 2 0 sprop []

/-! ## The value of the parameter -/

/-- Semicolon, carriage return and line feed end the value. -/
def endsValue (c : UInt8) : Bool := c = 59 ∨ c = 13 ∨ c = 10

/-- What stands behind the name of the parameter. -/
def spropText (sdp : List UInt8) : Option (List UInt8) := (strstr sdp spropKey).map (·.drop 21)

/-- The value of the parameter. -/
def spropValue (text : List UInt8) : List UInt8 := text.takeWhile fun c => !endsValue c

/-- What follows the value. -/
def spropRest (text : List UInt8) : List UInt8 := text.dropWhile fun c => !endsValue c

/-- Both decoders make the same of the parameter, in the 512 bytes that they have. -/
structure SpropAgree (sdp value : List UInt8) : Prop where
  same : sdpSpspps sdp = (parseH264Sprop value).spspps
  sdp_fits : (sdpSpspps sdp).length ≤ 512
  sprop_fits : (parseH264Sprop value).spspps.length ≤ 512

/-! ## The length of a set -/

/-- The characters of a Base64 text that `b64_decode` uses. -/
def b64Count (text : List UInt8) : ℕ :=
  ((text.takeWhile fun c => !b64Stop c).filter fun c => (b64Value c).isSome).length

/-- The length of the bytes that they make. -/
def setLength (text : List UInt8) : ℕ := 6 * b64Count text / 8

section Decode

variable {text value rest out set : List UInt8} {c : UInt8} {outMax : ℕ}

theorem b64Count_stop (h : b64Stop c = true) : b64Count (c :: rest) = 0 := by
  simp [b64Count, h]

theorem b64Count_skip (h : b64Stop c = false) (hv : b64Value c = none) :
    b64Count (c :: rest) = b64Count rest := by
  simp [b64Count, h, hv]

theorem b64Count_use {d : ℕ} (h : b64Stop c = false) (hv : b64Value c = some d) :
    b64Count (c :: rest) = b64Count rest + 1 := by
  simp [b64Count, h, hv]

/-- After `k` characters there are `6 * k / 8` bytes, and the bits left over are in `valb`. -/
theorem b64Loop_length (text : List UInt8) (k val : ℕ) (valb : ℤ) (out : List UInt8)
    (hvalb : valb = (6 * k % 8 : ℕ) - 8) (hout : out.length = 6 * k / 8)
    (hmax : out.length ≤ outMax) :
    match b64Loop outMax text val valb out with
    | none => outMax < 6 * (k + b64Count text) / 8
    | some set => set.length = 6 * (k + b64Count text) / 8 ∧ set.length ≤ outMax := by
  induction text generalizing k val valb out with
  | nil => exact ⟨hout, hmax⟩
  | cons c rest ih =>
    rw [b64Loop]
    cases hstop : b64Stop c with
    | true =>
      rw [if_pos rfl, b64Count_stop hstop]
      exact ⟨hout, hmax⟩
    | false =>
      rw [if_neg (by decide)]
      cases hv : b64Value c with
      | none =>
        rw [b64Count_skip hstop hv]
        exact ih k val valb out hvalb hout hmax
      | some d =>
        rw [b64Count_use hstop hv, ← Nat.add_assoc, Nat.add_right_comm]
        simp only
        -- A character adds six bits, which make a byte when two or more were left over.
        by_cases hbyte : 0 ≤ valb + 6
        · rw [if_pos hbyte]
          by_cases hroom : outMax ≤ out.length
          · rw [if_pos hroom]
            simp only
            omega
          · rw [if_neg hroom]
            refine ih (k + 1) _ _ _ (by omega) ?_ ?_
            · rw [List.length_append, hout, List.length_singleton]
              omega
            · rw [List.length_append, List.length_singleton]
              omega
        · rw [if_neg hbyte]
          exact ih (k + 1) _ _ out (by omega) (by omega) hmax

theorem b64Decode_none_iff : b64Decode text outMax = none ↔ outMax < setLength text := by
  have h := @b64Loop_length outMax text 0 0 (-8) [] (by decide) rfl (Nat.zero_le outMax)
  unfold b64Decode setLength
  rw [Nat.zero_add] at h
  cases hloop : b64Loop outMax text 0 (-8) [] with
  | none =>
    rw [hloop] at h
    exact ⟨fun _ => h, fun _ => rfl⟩
  | some set =>
    rw [hloop] at h
    obtain ⟨hlen, hle⟩ := h
    constructor
    · intro hnone
      cases hnone
    · intro hlt
      omega

theorem b64Decode_length (h : b64Decode text outMax = some set) : set.length = setLength text := by
  have hloop := @b64Loop_length outMax text 0 0 (-8) [] (by decide) rfl (Nat.zero_le outMax)
  rw [Nat.zero_add] at hloop
  unfold b64Decode at h
  rw [h] at hloop
  exact hloop.1

/-- What follows a character that ends the text is not read. -/
theorem b64Loop_append (value : List UInt8) (hrest : ∀ c ∈ rest.head?, b64Stop c = true)
    (val : ℕ) (valb : ℤ) (out : List UInt8) :
    b64Loop outMax (value ++ rest) val valb out = b64Loop outMax value val valb out := by
  induction value generalizing val valb out with
  | nil =>
    cases rest with
    | nil => rfl
    | cons c rest =>
      simp only [List.nil_append, b64Loop]
      exact if_pos (hrest c rfl)
  | cons c value ih => simp only [List.cons_append, b64Loop, ih]

theorem b64Decode_append (hrest : ∀ c ∈ rest.head?, b64Stop c = true) :
    b64Decode (value ++ rest) outMax = b64Decode value outMax :=
  b64Loop_append value hrest 0 (-8) []

end Decode

/-! ## The two decoders -/

section Agree

variable {sdp text p spspps : List UInt8} {set : Option (List UInt8)}

/-- Nothing is appended when there is no set, or no room for it. -/
theorem appendSet_decode_iff :
    appendSet spspps (b64Decode text 256) = spspps ↔
      setLength text = 0 ∨ 256 < setLength text ∨ 512 ≤ spspps.length + setLength text + 4 := by
  cases hset : b64Decode text 256 with
  | none =>
    have hlong := b64Decode_none_iff.mp hset
    exact ⟨fun _ => .inr (.inl hlong), fun _ => rfl⟩
  | some set =>
    have hlen := b64Decode_length hset
    have hshort : ¬ 256 < setLength text := fun h => by
      rw [b64Decode_none_iff.mpr h] at hset
      cases hset
    simp only [appendSet]
    split
    · rename_i hroom
      have hne : spspps ++ startCode ++ set ≠ spspps := by
        intro heq
        have := congrArg List.length heq
        simp only [List.length_append] at this
        omega
      exact ⟨fun h => absurd h hne, fun h => by omega⟩
    · exact ⟨fun _ => by omega, fun _ => rfl⟩

theorem appendSet_length (h : spspps.length ≤ 512) : (appendSet spspps set).length ≤ 512 := by
  unfold appendSet
  cases set with
  | none => exact h
  | some tmp =>
    simp only
    split
    · rename_i hroom
      simp only [List.length_append, startCode, List.length_cons, List.length_nil]
      omega
    · exact h

theorem sdpSpspps_length (sdp : List UInt8) : (sdpSpspps sdp).length ≤ 512 := by
  unfold sdpSpspps
  split
  · exact Nat.zero_le 512
  · simp only
    split
    · exact appendSet_length (Nat.zero_le 512)
    · exact appendSet_length (appendSet_length (Nat.zero_le 512))

/-- Also what is written before a refusal is in bounds. -/
theorem spropLoop_length (fuel count : ℕ) (p spspps : List UInt8) (h : spspps.length ≤ 512) :
    (spropLoop fuel count p spspps).spspps.length ≤ 512 := by
  induction fuel generalizing count p spspps with
  | zero => exact h
  | succ fuel ih =>
    rw [spropLoop]
    split
    · split
      · exact h
      · simp only
        split
        · exact h
        · rename_i tmp _ hroom
          have hlen : (spspps ++ startCode ++ tmp).length ≤ 512 := by
            simp only [List.length_append, startCode, List.length_cons, List.length_nil]
            omega
          split
          · exact h
          · split
            · exact hlen
            · exact ih (count + 1) _ _ hlen
    · exact h

theorem parseH264Sprop_length (sprop : List UInt8) :
    (parseH264Sprop sprop).spspps.length ≤ 512 :=
  spropLoop_length 2 0 sprop [] (Nat.zero_le 512)

/-- A round of an accepted value decodes a set, which `sdp_parse_h264` would append as well. -/
theorem spropLoop_round {fuel count : ℕ} (hp : p ≠ []) (hcount : count < 2)
    (h : (spropLoop (fuel + 1) count p spspps).accepted = true) :
    spropLoop (fuel + 1) count p spspps =
        (match strchr p 44 with
        | none => ⟨true, appendSet spspps (b64Decode p 256)⟩
        | some e => spropLoop fuel (count + 1) (e.drop 1) (appendSet spspps (b64Decode p 256))) ∧
      (appendSet spspps (b64Decode p 256)).length = spspps.length + (4 + setLength p) := by
  rw [spropLoop, if_pos ⟨hp, hcount⟩] at h ⊢
  cases hset : b64Decode p 256 with
  | none =>
    rw [hset] at h
    cases h
  | some tmp =>
    have hlen := b64Decode_length hset
    simp only [hset] at h ⊢
    by_cases hroom : tmp.length = 0 ∨ 512 ≤ spspps.length + tmp.length + 4
    · rw [if_pos hroom] at h
      cases h
    · rw [if_neg hroom] at h ⊢
      have happend : appendSet spspps (some tmp) = spspps ++ startCode ++ tmp :=
        if_pos (by omega)
      rw [happend]
      refine ⟨?_, ?_⟩
      · split at h
        · cases h
        · rename_i htype
          rw [if_neg htype]
      · simp only [List.length_append, startCode, List.length_cons, List.length_nil]
        omega

/-- The second set of an accepted value is what `sdp_parse_h264` would append. -/
theorem spropLoop_second (h : (spropLoop 1 1 p spspps).accepted = true) :
    (spropLoop 1 1 p spspps).spspps = appendSet spspps (b64Decode p 256) := by
  by_cases hp : p = []
  · subst hp
    rfl
  · rw [(spropLoop_round hp (by decide) h).1]
    cases strchr p 44 <;> rfl

/-- The first set, and then the second one when the value has a comma. -/
theorem parseH264Sprop_spspps {value : List UInt8}
    (h : (parseH264Sprop value).accepted = true) :
    (appendSet [] (b64Decode value 256)).length = 4 + setLength value ∧
      (parseH264Sprop value).spspps =
        match strchr value 44 with
        | none => appendSet [] (b64Decode value 256)
        | some e => appendSet (appendSet [] (b64Decode value 256)) (b64Decode (e.drop 1) 256) := by
  have hne : value ≠ [] := by
    rintro rfl
    cases h
  obtain ⟨hround, hlen⟩ := spropLoop_round hne (by decide) h
  refine ⟨by rw [hlen, List.length_nil, Nat.zero_add], ?_⟩
  unfold parseH264Sprop at h ⊢
  rw [hround] at h ⊢
  cases hcomma : strchr value 44 with
  | none => rfl
  | some e =>
    rw [hcomma] at h
    exact spropLoop_second h

/-- What follows the value begins with a character that ends it. -/
theorem spropRest_stop : ∀ c ∈ (spropRest text).head?, b64Stop c = true := by
  intro c hc
  have hend := List.head?_dropWhile_not (fun c => !endsValue c) text
  rw [spropRest] at hc
  rw [hc] at hend
  simp only [Bool.not_eq_false', endsValue, decide_eq_true_eq] at hend
  rw [b64Stop, decide_eq_true_eq]
  tauto

/-- `sdp_parse_h264` on a parameter: the first comma may stand behind the value. -/
theorem sdpSpspps_of_text (htext : spropText sdp = some text) :
    sdpSpspps sdp =
      match strchr text 44 with
      | none => appendSet [] (b64Decode (spropValue text) 256)
      | some comma =>
        appendSet (appendSet [] (b64Decode (spropValue text) 256))
          (b64Decode (comma.drop 1) 256) := by
  obtain ⟨t, ht, rfl⟩ := Option.map_eq_some_iff.mp htext
  have hfirst : b64Decode (t.drop 21) 256 = b64Decode (spropValue (t.drop 21)) 256 := by
    have happend : b64Decode (spropValue (t.drop 21) ++ spropRest (t.drop 21)) 256 =
        b64Decode (spropValue (t.drop 21)) 256 := b64Decode_append spropRest_stop
    rwa [spropValue, spropRest, List.takeWhile_append_dropWhile] at happend
  unfold sdpSpspps
  rw [ht]
  simp only [hfirst]

/-- The decoders agree exactly when the value has a comma of its own, or no comma follows it, or
what follows the next comma makes no set or one without room. -/
theorem sprop_agree_iff (htext : spropText sdp = some text)
    (haccept : (parseH264Sprop (spropValue text)).accepted = true) :
    SpropAgree sdp (spropValue text) ↔
      44 ∈ spropValue text ∨
        ∀ comma, strchr (spropRest text) 44 = some comma →
          setLength (comma.drop 1) = 0 ∨ 256 < setLength (comma.drop 1) ∨
            512 ≤ 4 + setLength (spropValue text) + setLength (comma.drop 1) + 4 := by
  have hfits : SpropAgree sdp (spropValue text) ↔
      sdpSpspps sdp = (parseH264Sprop (spropValue text)).spspps :=
    ⟨fun h => h.same, fun h => ⟨h, sdpSpspps_length sdp, parseH264Sprop_length _⟩⟩
  have hsplit : spropValue text ++ spropRest text = text := List.takeWhile_append_dropWhile
  obtain ⟨hlen, hvalue⟩ := parseH264Sprop_spspps haccept
  rw [hfits, hvalue, sdpSpspps_of_text htext]
  by_cases hmem : 44 ∈ spropValue text
  · -- Both take the second set from behind the same comma.
    refine iff_of_true ?_ (.inl hmem)
    cases hcomma : strchr (spropValue text) 44 with
    | none => exact absurd hmem (strchr_eq_none_iff.mp hcomma)
    | some e =>
      have hfound := strchr_append_of_some (s := spropRest text) hcomma
      obtain ⟨pre, rest, rfl, -⟩ := strchr_eq_some_iff.mp hcomma
      rw [hsplit] at hfound
      simp only [hfound, List.cons_append, List.drop_succ_cons, List.drop_zero]
      rw [b64Decode_append spropRest_stop]
  · have hfound := strchr_append_of_not_mem (s := spropRest text) hmem
    rw [hsplit] at hfound
    rw [hfound, strchr_eq_none_iff.mpr hmem]
    simp only [hmem, false_or]
    cases hcomma : strchr (spropRest text) 44 with
    | none => simp
    | some comma =>
      simp only [Option.some.injEq, forall_eq']
      rw [appendSet_decode_iff, hlen]

/-- Two sets, and more parameters behind them. -/
theorem sprop_agree_two_sets :
    let text := ascii "Z0IAHpWoKA9k,aM48gA==;x=1,2345\r\n"
    SpropAgree (ascii "a=fmtp:96 sprop-parameter-sets=Z0IAHpWoKA9k,aM48gA==;x=1,2345\r\n")
      (spropValue text) :=
  have htext : spropText (ascii
      "a=fmtp:96 sprop-parameter-sets=Z0IAHpWoKA9k,aM48gA==;x=1,2345\r\n") =
      some (ascii "Z0IAHpWoKA9k,aM48gA==;x=1,2345\r\n") := by decide +kernel
  (sprop_agree_iff htext (by decide +kernel)).mpr (.inl (by decide +kernel))

/-- With one set the text behind a comma of the next line is taken for the other set. -/
theorem sprop_of_next_line :
    let sdp := ascii "a=fmtp:96 sprop-parameter-sets=Z0IAHpWoKA9k\r\na=x:1,abcd\r\n"
    let value := ascii "Z0IAHpWoKA9k"
    spropText sdp = some (value ++ ascii "\r\na=x:1,abcd\r\n") ∧
      (parseH264Sprop value).accepted = true ∧
      (parseH264Sprop value).spspps = [0, 0, 0, 1, 103, 66, 0, 30, 149, 168, 40, 15, 100] ∧
      sdpSpspps sdp =
        [0, 0, 0, 1, 103, 66, 0, 30, 149, 168, 40, 15, 100, 0, 0, 0, 1, 105, 183, 29] ∧
      ¬ SpropAgree sdp value := by
  refine ⟨by decide +kernel, by decide +kernel, by decide +kernel, by decide +kernel, fun h => ?_⟩
  exact absurd h.same (by decide +kernel)

end Agree

end Stream
end ToonVpu
