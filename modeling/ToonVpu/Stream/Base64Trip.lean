import Mathlib.Algebra.Group.Nat.Defs
import ToonVpu.Foundation.Logged
import ToonVpu.Foundation.Machine
import ToonVpu.Stream.RtspUrl
import ToonVpu.Stream.Sprop

/-!
# Base64Trip — `b64_encode_basic` and `b64_decode` in memory (`apps/vpu_stream.c`)

Both functions fill an array of `out_max` bytes.  The encoder stops while there is still room for a
terminator, and the decoder does not mask its accumulator: bits of earlier characters stay above the
ones it needs until they are shifted out of the 32 bits.
-/

namespace ToonVpu
namespace Stream

open Foundation
open Foundation.Logged

/-! ## Stores -/

/-- A computation that logs where it stores which byte. -/
abbrev OutProg (α : Type) := Logged (ℤ × UInt8) α

def put (o : ℤ) (c : UInt8) : OutProg Unit := ⟨(), [(o, c)]⟩

/-- `out[o++] = c` for one byte after another. -/
def putAll (o : ℤ) : List UInt8 → OutProg ℤ
  | [] => pure o
  | c :: cs => do
    put o c
    putAll (i32 (o + 1)) cs

/-- The stores of bytes side by side. -/
def stores (o : ℤ) : List UInt8 → List (ℤ × UInt8)
  | [] => []
  | c :: cs => (o, c) :: stores (o + 1) cs

/-- The array after the stores. -/
def stored (log : List (ℤ × UInt8)) (mem : ℤ → UInt8) : ℤ → UInt8 :=
  log.foldl (fun mem e => Function.update mem e.1 e.2) mem

/-- The array begins with the bytes. -/
def Begins (mem : ℤ → UInt8) (cs : List UInt8) : Prop :=
  ∀ k (hk : k < cs.length), mem k = cs[k]

/-- The string that the array holds. -/
def HoldsString (mem : ℤ → UInt8) (text : List UInt8) : Prop := 0 ∉ text ∧ Begins mem (text ++ [0])

/-- Nothing is stored outside an array of `outMax` bytes. -/
def StaysWithin (outMax : ℤ) {α : Type} (x : OutProg α) : Prop :=
  ∀ e ∈ x.log, 0 ≤ e.1 ∧ e.1 < outMax

instance (outMax : ℤ) {α : Type} (x : OutProg α) : Decidable (StaysWithin outMax x) :=
  inferInstanceAs (Decidable (∀ e ∈ x.log, 0 ≤ e.1 ∧ e.1 < outMax))

def IsInt (x : ℤ) : Prop := -2147483648 ≤ x ∧ x < 2147483648

/-! ## The functions -/

/-- The loop of `b64_decode`. -/
def b64DecodeLoop (outMax : ℤ) : List UInt8 → (val : ℕ) → (valb len : ℤ) → OutProg ℤ
  | [], _, _, len => pure len
  | c :: rest, val, valb, len =>
    if b64Stop c then
      pure len
    else
      match b64Value c with
      -- Bytes outside of the alphabet are passed over.
      | none => b64DecodeLoop outMax rest val valb len
      | some d =>
        let val := (val <<< 6 ||| d) % 2 ^ 32
        let valb := valb + 6
        if 0 ≤ valb then
          if outMax ≤ len then
            pure (-1)
          else do
            put len (UInt8.ofNat (val >>> valb.toNat))
            b64DecodeLoop outMax rest val (valb - 8) (i32 (len + 1))
        else
          b64DecodeLoop outMax rest val valb len

/-- `b64_decode` with its stores. -/
def b64DecodeOut (text : List UInt8) (outMax : ℤ) : OutProg ℤ :=
  b64DecodeLoop outMax text 0 (-8) 0

/-- The loop of `b64_encode_basic`; it returns `o`. -/
def b64EncodeStores (text : List UInt8) (outMax : ℤ) : (fuel : ℕ) → (i o : ℤ) → OutProg ℤ
  | 0, _, o => pure o
  | fuel + 1, i, o =>
    if i < text.length ∧ i32 (o + 4) < outMax then do
      let o ← putAll o (b64Group (text.drop i.toNat))
      b64EncodeStores text outMax fuel (i32 (i + 3)) o
    else
      pure o

/-- `b64_encode_basic` with its stores; `len` is an `int`. -/
def b64EncodeBasicOut (input : List UInt8) (outMax : ℤ) : OutProg Unit := do
  let len := i32 input.length
  let o ← b64EncodeStores (input.take len.toNat) outMax input.length 0 0
  put o 0

/-! ## Bytes side by side -/

section Stores

variable {o k : ℤ} {c : UInt8} {cs ds : List UInt8} {mem : ℤ → UInt8}

theorem stores_append : stores o (cs ++ ds) = stores o cs ++ stores (o + cs.length) ds := by
  induction cs generalizing o with
  | nil => simp [stores]
  | cons c cs ih =>
    have hnext : o + 1 + (cs.length : ℤ) = o + ((c :: cs).length : ℤ) := by
      rw [List.length_cons]
      omega
    rw [List.cons_append, stores, ih, hnext, stores, List.cons_append]

theorem mem_stores {e : ℤ × UInt8} (he : e ∈ stores o cs) : o ≤ e.1 ∧ e.1 < o + cs.length := by
  induction cs generalizing o with
  | nil => exact nomatch he
  | cons c cs ih =>
    rw [List.length_cons]
    rcases List.mem_cons.mp he with rfl | hrest
    · simp only
      omega
    · have hbounds := ih hrest
      omega

theorem stored_before (hk : k < o) : stored (stores o cs) mem k = mem k := by
  induction cs generalizing o mem with
  | nil => rfl
  | cons c cs ih =>
    have hlater : k < o + 1 := by omega
    calc stored (stores o (c :: cs)) mem k
        = stored (stores (o + 1) cs) (Function.update mem o c) k := rfl
      _ = Function.update mem o c k := ih hlater
      _ = mem k := Function.update_of_ne (Int.ne_of_lt hk) _ _

variable (o mem) in
theorem stored_stores {n : ℕ} (hn : n < cs.length) :
    stored (stores o cs) mem (o + n) = cs[n] := by
  induction cs generalizing o mem n with
  | nil => exact nomatch hn
  | cons c cs ih =>
    cases n with
    | zero =>
      have hhere : o + ((0 : ℕ) : ℤ) < o + 1 := by omega
      calc stored (stores o (c :: cs)) mem (o + (0 : ℕ))
          = stored (stores (o + 1) cs) (Function.update mem o c) (o + (0 : ℕ)) := rfl
        _ = Function.update mem o c (o + (0 : ℕ)) := stored_before hhere
        _ = c := by simp
    | succ n =>
      have hnext : o + ((n + 1 : ℕ) : ℤ) = o + 1 + n := by omega
      rw [hnext]
      exact ih _ _ (Nat.lt_of_succ_lt_succ hn)

theorem begins_stored : Begins (stored (stores 0 cs) mem) cs := by
  intro k hk
  have h := stored_stores 0 mem hk
  rw [Int.zero_add] at h
  exact h

variable (cs) in
theorem putAll_eq (hl : -2147483648 ≤ o) (hu : o + cs.length < 2147483648) :
    putAll o cs = ⟨o + cs.length, stores o cs⟩ := by
  induction cs generalizing o with
  | nil => simp [putAll, stores, pure]
  | cons c cs ih =>
    rw [List.length_cons] at hu ⊢
    have hnext : i32 (o + 1) = o + 1 := i32_eq (by omega) (by omega)
    have hlength : o + 1 + (cs.length : ℤ) = o + ((cs.length + 1 : ℕ) : ℤ) := by omega
    unfold putAll
    rw [hnext, ih (by omega) (by omega), hlength]
    rfl

end Stores

/-! ## The decoder -/

section Decode

variable {rest text out : List UInt8} {outMax : ℕ} {valb : ℤ}

theorem b64Value_alphabet : ∀ n < 64, b64Value (Base64.alphabet n) = some n := by
  decide +kernel

theorem b64Stop_alphabet : ∀ n < 64, b64Stop (Base64.alphabet n) = false := by
  decide +kernel

/-- The accumulator after one more digit. -/
def accumulate (val n : ℕ) : ℕ := (val * 64 + n) % 4294967296

theorem accumulate_eq {val n : ℕ} (hn : n < 64) :
    (val <<< 6 ||| n) % 2 ^ 32 = accumulate val n := by
  have hor : val * 64 + n = val * 64 ||| n := by
    rw [Nat.mul_comm]
    exact Nat.two_pow_add_eq_or_of_lt (i := 6) hn val
  have hsix : 2 ^ 6 = 64 := rfl
  have hword : 2 ^ 32 = 4294967296 := rfl
  rw [accumulate, Nat.shiftLeft_eq, hsix, hword, hor]

/-- A digit that does not make a byte yet. -/
theorem b64Loop_digit {val n : ℕ} (hn : n < 64) (hvalb : valb + 6 < 0) :
    b64Loop outMax (Base64.alphabet n :: rest) val valb out =
      b64Loop outMax rest (accumulate val n) (valb + 6) out := by
  rw [b64Loop, b64Stop_alphabet n hn, if_neg (by decide), b64Value_alphabet n hn]
  simp only
  rw [if_neg (by omega), accumulate_eq hn]

/-- A digit that makes a byte. -/
theorem b64Loop_byte {val n k : ℕ} {c : UInt8} (hn : n < 64) (hvalb : valb + 6 = k)
    (hroom : out.length < outMax) (hc : c.toNat = accumulate val n / 2 ^ k % 256) :
    b64Loop outMax (Base64.alphabet n :: rest) val valb out =
      b64Loop outMax rest (accumulate val n) (valb - 2) (out ++ [c]) := by
  have hbyte : UInt8.ofNat (accumulate val n >>> k) = c := by
    apply UInt8.toNat_inj.mp
    rw [UInt8.toNat_ofNat', Nat.shiftRight_eq_div_pow, hc]
  have hnext : valb + 6 - 8 = valb - 2 := by omega
  rw [b64Loop, b64Stop_alphabet n hn, if_neg (by decide), b64Value_alphabet n hn]
  simp only
  rw [if_pos (by omega), if_neg (by omega), accumulate_eq hn, hnext, hvalb, Int.toNat_natCast,
    hbyte]

/-- Its upper six bits are in the digit before. -/
theorem first_byte {val x : ℕ} {a : UInt8} (hx : x < 16) :
    a.toNat = accumulate (accumulate val (a.toNat / 4)) (a.toNat % 4 * 16 + x) / 2 ^ 4 % 256 := by
  have ha := a.toNat_lt
  unfold accumulate
  omega

theorem first_byte_last {val : ℕ} {a : UInt8} :
    a.toNat = accumulate (accumulate val (a.toNat / 4)) (a.toNat % 4 * 16) / 2 ^ 4 % 256 :=
  first_byte (x := 0) (by decide)

/-- Its upper four bits are in the digit before. -/
theorem second_byte {val m x : ℕ} {b : UInt8} (hx : x < 4) :
    b.toNat = accumulate (accumulate val (m * 16 + b.toNat / 16)) (b.toNat % 16 * 4 + x) /
      2 ^ 2 % 256 := by
  have hb := b.toNat_lt
  unfold accumulate
  omega

theorem second_byte_last {val m : ℕ} {b : UInt8} :
    b.toNat = accumulate (accumulate val (m * 16 + b.toNat / 16)) (b.toNat % 16 * 4) /
      2 ^ 2 % 256 :=
  second_byte (x := 0) (by decide)

/-- Its upper two bits are in the digit before. -/
theorem third_byte {val m : ℕ} {c : UInt8} :
    c.toNat = accumulate (accumulate val (m * 4 + c.toNat / 64)) (c.toNat % 64) / 2 ^ 0 % 256 := by
  have hc := c.toNat_lt
  unfold accumulate
  omega

theorem b64Loop_padding {val : ℕ} :
    b64Loop outMax (Base64.padding :: rest) val valb out = some out :=
  if_pos rfl

/-- Each group starts where no bits are left over, and whatever the groups before it have left in
the accumulator is above the bits that its bytes are taken from. -/
theorem b64Loop_encode (s : List UInt8) (val : ℕ) (out : List UInt8)
    (hroom : out.length + s.length ≤ outMax) :
    b64Loop outMax (Base64.encode s) val (-8) out = some (out ++ s) := by
  fun_induction Base64.encode s generalizing val out with
  | case1 => simp [b64Loop]
  | case2 a =>
    have ha := a.toNat_lt
    rw [List.length_singleton] at hroom
    rw [b64Loop_digit (by omega) (by decide),
      b64Loop_byte (by omega) rfl hroom first_byte_last, b64Loop_padding]
  | case3 a b =>
    have ha := a.toNat_lt
    have hb := b.toNat_lt
    simp only [List.length_cons, List.length_nil] at hroom
    have hfirst : out.length < outMax := by omega
    have hsecond : (out ++ [a]).length < outMax := by
      rw [List.length_append, List.length_singleton]
      omega
    rw [b64Loop_digit (by omega) (by decide),
      b64Loop_byte (by omega) rfl hfirst (first_byte (by omega)),
      b64Loop_byte (by omega) rfl hsecond second_byte_last, b64Loop_padding,
      List.append_assoc]
    rfl
  | case4 a b c rest ih =>
    have ha := a.toNat_lt
    have hb := b.toNat_lt
    have hc := c.toNat_lt
    simp only [List.length_cons] at hroom
    have hfirst : out.length < outMax := by omega
    have hsecond : (out ++ [a]).length < outMax := by
      rw [List.length_append, List.length_singleton]
      omega
    have hthird : (out ++ [a] ++ [b]).length < outMax := by
      rw [List.length_append, List.length_append, List.length_singleton, List.length_singleton]
      omega
    have hback : (-8 + 6 - 2 - 2 - 2 : ℤ) = -8 := rfl
    have hbytes : out ++ [a] ++ [b] ++ [c] ++ rest = out ++ (a :: b :: c :: rest) := by simp
    rw [b64Loop_digit (by omega) (by decide),
      b64Loop_byte (by omega) rfl hfirst (first_byte (by omega)),
      b64Loop_byte (by omega) rfl hsecond (second_byte (by omega)),
      b64Loop_byte (by omega) rfl hthird third_byte, hback, ih, hbytes]
    simp only [List.length_append, List.length_singleton]
    omega

theorem b64Decode_encode {s : List UInt8} (hroom : s.length ≤ outMax) :
    b64Decode (Base64.encode s) outMax = some s :=
  b64Loop_encode s 0 [] (by simpa using hroom)

end Decode

/-- The stores and the return value of the decoder, from `out` on, when `b64Loop` gives `res`. -/
structure Decodes (outMax : ℤ) (out ext : List UInt8) (res : Option (List UInt8))
    (x : OutProg ℤ) : Prop where
  log : x.log = stores out.length ext
  room : ext = [] ∨ (out.length + ext.length : ℤ) ≤ outMax
  value : x.value = (res.map fun set => (set.length : ℤ)).getD (-1)
  result : ∀ set ∈ res, set = out ++ ext

theorem Decodes.done (outMax : ℤ) (out : List UInt8) :
    Decodes outMax out [] (some out) (pure (out.length : ℤ)) :=
  ⟨rfl, .inl rfl, rfl, fun set hset => by simpa using hset.symm⟩

theorem Decodes.full (outMax : ℤ) (out : List UInt8) : Decodes outMax out [] none (pure (-1)) :=
  ⟨rfl, .inl rfl, rfl, nofun⟩

/-- One more byte. -/
theorem Decodes.put {outMax : ℤ} {out ext : List UInt8} {c : UInt8} {res : Option (List UInt8)}
    {x : OutProg ℤ} (hroom : (out.length : ℤ) < outMax)
    (h : Decodes outMax (out ++ [c]) ext res x) :
    Decodes outMax out (c :: ext) res (do Stream.put out.length c; x) := by
  have hlength : ((out ++ [c]).length : ℤ) = out.length + 1 := by simp
  refine ⟨?_, .inr ?_, h.value, fun set hset => ?_⟩
  · have hlog := h.log
    rw [hlength] at hlog
    exact congrArg (List.cons _) hlog
  · rw [List.length_cons]
    rcases h.room with rfl | hfits
    · rw [List.length_nil]
      omega
    · rw [hlength] at hfits
      omega
  · rw [h.result set hset, List.append_assoc]
    rfl

theorem b64DecodeLoop_decodes {outMax : ℤ} (hmax : outMax < 2147483648) (text : List UInt8)
    (val : ℕ) (valb : ℤ) (out : List UInt8) :
    ∃ ext, Decodes outMax out ext (b64Loop outMax.toNat text val valb out)
      (b64DecodeLoop outMax text val valb out.length) := by
  induction text generalizing val valb out with
  | nil => exact ⟨[], .done outMax out⟩
  | cons c rest ih =>
    unfold b64Loop b64DecodeLoop
    cases b64Stop c with
    | true => exact ⟨[], .done outMax out⟩
    | false =>
      rw [if_neg (by decide), if_neg (by decide)]
      cases b64Value c with
      | none => exact ih val valb out
      | some d =>
        simp only
        generalize (val <<< 6 ||| d) % 2 ^ 32 = next
        by_cases hbyte : 0 ≤ valb + 6
        · rw [if_pos hbyte, if_pos hbyte]
          generalize UInt8.ofNat (next >>> (valb + 6).toNat) = byte
          by_cases hroom : (out.length : ℤ) < outMax
          · have hnext : i32 ((out.length : ℤ) + 1) = ((out ++ [byte]).length : ℤ) := by
              rw [List.length_append, List.length_singleton]
              exact i32_eq (by omega) (by omega)
            rcases ih next (valb + 6 - 8) (out ++ [byte]) with ⟨ext, hrest⟩
            rw [if_neg (by omega), if_neg (by omega), hnext]
            exact ⟨byte :: ext, hrest.put hroom⟩
          · rw [if_pos (by omega), if_pos (by omega)]
            exact ⟨[], .full outMax out⟩
        · rw [if_neg hbyte, if_neg hbyte]
          exact ih next (valb + 6) out

/-- The decoder stores what it decodes, and nothing else. -/
theorem b64DecodeOut_decodes {outMax : ℤ} (hmax : outMax < 2147483648) (text : List UInt8) :
    ∃ ext, Decodes outMax [] ext (b64Decode text outMax.toNat) (b64DecodeOut text outMax) :=
  b64DecodeLoop_decodes hmax text 0 (-8) []

theorem b64DecodeOut_within {outMax : ℤ} (hmax : outMax < 2147483648) (text : List UInt8) :
    StaysWithin outMax (b64DecodeOut text outMax) := by
  rcases b64DecodeOut_decodes hmax text with ⟨ext, hlog, hroom, -, -⟩
  intro e he
  rw [hlog] at he
  have hplace := mem_stores he
  rw [List.length_nil] at hplace hroom
  rcases hroom with rfl | hfits
  · exact nomatch he
  · omega

/-! ## The encoder -/

theorem zero_ne_alphabet : ∀ n < 64, 0 ≠ Base64.alphabet n := by
  decide +kernel

theorem zero_ne_padding : (0 : UInt8) ≠ Base64.padding := by decide

/-- The encoding is a string. -/
theorem zero_notMem_encode (s : List UInt8) : 0 ∉ Base64.encode s := by
  fun_induction Base64.encode s with
  | case1 => exact List.not_mem_nil
  | case2 a =>
    have ha := a.toNat_lt
    simp only [List.mem_cons, List.not_mem_nil, or_false, not_or]
    exact ⟨zero_ne_alphabet _ (by omega), zero_ne_alphabet _ (by omega), zero_ne_padding,
      zero_ne_padding⟩
  | case3 a b =>
    have ha := a.toNat_lt
    have hb := b.toNat_lt
    simp only [List.mem_cons, List.not_mem_nil, or_false, not_or]
    exact ⟨zero_ne_alphabet _ (by omega), zero_ne_alphabet _ (by omega),
      zero_ne_alphabet _ (by omega), zero_ne_padding⟩
  | case4 a b c rest ih =>
    have ha := a.toNat_lt
    have hb := b.toNat_lt
    have hc := c.toNat_lt
    simp only [List.mem_cons, not_or]
    exact ⟨zero_ne_alphabet _ (by omega), zero_ne_alphabet _ (by omega),
      zero_ne_alphabet _ (by omega), zero_ne_alphabet _ (by omega), ih⟩

section Encode

variable {text : List UInt8} {outMax : ℤ}

/-- The groups that are still to come after `g` of them. -/
def groupsFrom (text : List UInt8) (outMax : ℤ) (g : ℕ) : List UInt8 :=
  Base64.encode ((text.drop (3 * g)).take (3 * ((outMax.toNat - 1) / 4 - g)))

theorem groupsFrom_end {g : ℕ} (hend : text.length ≤ 3 * g) : groupsFrom text outMax g = [] := by
  rw [groupsFrom, List.drop_eq_nil_of_le hend, List.take_nil]
  rfl

theorem groupsFrom_full {g : ℕ} (hfull : outMax ≤ 4 * g + 4) : groupsFrom text outMax g = [] := by
  have hnone : (outMax.toNat - 1) / 4 - g = 0 := by omega
  rw [groupsFrom, hnone, Nat.mul_zero, List.take_zero]
  rfl

theorem groupsFrom_next {g : ℕ} (hmore : 3 * g < text.length) (hroom : 4 * g + 4 < outMax) :
    groupsFrom text outMax g = b64Group (text.drop (3 * g)) ++ groupsFrom text outMax (g + 1) := by
  have hpos : 0 < (text.drop (3 * g)).length := by
    rw [List.length_drop]
    omega
  have hcount : (outMax.toNat - 1) / 4 - g = (outMax.toNat - 1) / 4 - (g + 1) + 1 := by omega
  rw [groupsFrom, hcount, encode_group _ _ hpos, b64Group_eq hpos, List.drop_drop, groupsFrom,
    Nat.mul_add]

theorem b64Group_length (rest : List UInt8) : (b64Group rest).length = 4 := rfl

theorem bind_mk {α β : Type} (a : α) (log : List (ℤ × UInt8)) (f : α → OutProg β) :
    (⟨a, log⟩ : OutProg α) >>= f = ⟨(f a).value, log ++ (f a).log⟩ := rfl

/-- The loop takes group `g`, when there is room for it and `o + 4` does not overflow. -/
theorem b64EncodeStores_step {g : ℕ} (fuel : ℕ) (hmore : 3 * g < text.length)
    (hint : 4 * g < 2147483644) (hroom : ((4 * (g + 1) : ℕ) : ℤ) < outMax) :
    b64EncodeStores text outMax (fuel + 1) (3 * g : ℕ) (4 * g : ℕ) =
      ⟨(b64EncodeStores text outMax fuel (3 * (g + 1) : ℕ) (4 * (g + 1) : ℕ)).value,
        stores (4 * g : ℕ) (b64Group (text.drop (3 * g))) ++
          (b64EncodeStores text outMax fuel (3 * (g + 1) : ℕ) (4 * (g + 1) : ℕ)).log⟩ := by
  have hsum : i32 ((4 * g : ℕ) + 4) = (4 * (g + 1) : ℕ) := by
    rw [i32_eq (by omega) (by omega)]
    omega
  have hindex : i32 ((3 * g : ℕ) + 3) = (3 * (g + 1) : ℕ) := by
    rw [i32_eq (by omega) (by omega)]
    omega
  have hput := putAll_eq (o := (4 * g : ℕ)) (b64Group (text.drop (3 * g))) (by omega)
    (by rw [b64Group_length]; omega)
  have hnext : ((4 * g : ℕ) : ℤ) + (4 : ℕ) = (4 * (g + 1) : ℕ) := by omega
  rw [b64EncodeStores, hsum, hindex, if_pos ⟨by omega, hroom⟩, Int.toNat_natCast, hput, bind_mk,
    b64Group_length, hnext]

variable (text) in
/-- The loop from group `g` on, as long as `o + 4` does not overflow. -/
theorem b64EncodeStores_eq (hlen : (text.length : ℤ) < 2147483648) (hmax : outMax < 2147483648)
    (hfits : outMax ≤ 2147483644 ∨ (text.length : ℤ) ≤ 1610612733) (fuel g : ℕ)
    (hg : (4 * g : ℕ) < outMax) (hfuel : text.length ≤ 3 * g + fuel) :
    b64EncodeStores text outMax fuel (3 * g : ℕ) (4 * g : ℕ) =
      ⟨(4 * g : ℕ) + (groupsFrom text outMax g).length,
        stores (4 * g : ℕ) (groupsFrom text outMax g)⟩ := by
  -- `g` groups are done, and there are at least as many rounds left as bytes
  induction fuel generalizing g with
  | zero =>
    rw [groupsFrom_end (by omega), List.length_nil]
    simp [b64EncodeStores, stores, pure]
  | succ fuel ih =>
    by_cases hmore : 3 * g < text.length
    · by_cases hroom : ((4 * (g + 1) : ℕ) : ℤ) < outMax
      · have hnext : ((4 * g : ℕ) : ℤ) + (4 : ℕ) = (4 * (g + 1) : ℕ) := by omega
        have hlength : ((4 * (g + 1) : ℕ) : ℤ) + (groupsFrom text outMax (g + 1)).length =
            (4 * g : ℕ) + (groupsFrom text outMax g).length := by
          rw [groupsFrom_next hmore (by omega), List.length_append, b64Group_length]
          omega
        rw [b64EncodeStores_step fuel hmore (by omega) hroom, ih (g + 1) hroom (by omega), hlength,
          groupsFrom_next hmore (by omega), stores_append, b64Group_length, hnext]
      · have hsum : i32 ((4 * g : ℕ) + 4) = (4 * (g + 1) : ℕ) := by
          rw [i32_eq (by omega) (by omega)]
          omega
        unfold b64EncodeStores
        rw [hsum, if_neg (fun h => hroom h.2), groupsFrom_full (by omega), List.length_nil]
        simp [stores, pure]
    · unfold b64EncodeStores
      rw [if_neg (fun h => hmore (by omega)), groupsFrom_end (by omega), List.length_nil]
      simp [stores, pure]

/-- The last byte of these four is the last one that an `int` can count to. -/
theorem putAll_past {cs : List UInt8} (hcs : cs.length = 4) :
    ∃ e ∈ (putAll 2147483644 cs).log, e.1 = 2147483647 := by
  match cs, hcs with
  | [c0, c1, c2, c3], _ =>
    have hlog : (putAll 2147483644 [c0, c1, c2, c3]).log =
        [(2147483644, c0), (2147483645, c1), (2147483646, c2), (2147483647, c3)] := rfl
    rw [hlog]
    exact ⟨(2147483647, c3), by simp, rfl⟩

variable (text) in
/-- The groups up to the one before which `o + 4` overflows, and that one. -/
theorem b64EncodeStores_overflow (hmax : 2147483645 ≤ outMax) (hlong : 1610612733 < text.length)
    (fuel g : ℕ) (hg : g < 536870912) (hfuel : 536870912 ≤ g + fuel) :
    ∃ e ∈ (b64EncodeStores text outMax fuel (3 * g : ℕ) (4 * g : ℕ)).log, e.1 = 2147483647 := by
  induction fuel generalizing g with
  | zero => omega
  | succ fuel ih =>
    rcases Nat.lt_or_ge g 536870911 with hearly | hlast
    · rw [b64EncodeStores_step fuel (by omega) (by omega) (by omega)]
      rcases ih (g + 1) (by omega) (by omega) with ⟨e, he, hplace⟩
      exact ⟨e, List.mem_append_right _ he, hplace⟩
    · -- `o + 4` is now the least `int`, so there seems to be room
      have hg : g = 536870911 := by omega
      have hsum : i32 ((4 * g : ℕ) + 4) = -2147483648 := by
        rw [hg]
        rfl
      have hplace : ((4 * g : ℕ) : ℤ) = 2147483644 := by omega
      unfold b64EncodeStores
      rw [hsum, if_pos ⟨by omega, by omega⟩, hplace]
      rcases putAll_past (b64Group_length (text.drop ((3 * g : ℕ) : ℤ).toNat)) with ⟨e, he, hpast⟩
      exact ⟨e, List.mem_append_left _ he, hpast⟩

end Encode

section EncodeBasic

variable {input : List UInt8} {outMax : ℤ}

variable (input) in
/-- The text that the encoder goes through. -/
theorem take_len :
    ((input.take (i32 input.length).toNat).length : ℤ) = max 0 (i32 input.length) ∧
      i32 input.length ≤ input.length ∧ i32 input.length < 2147483648 := by
  rw [List.length_take]
  unfold i32
  omega

theorem take_len_of_lt (hlen : (input.length : ℤ) < 2147483648) :
    input.take (i32 input.length).toNat = input := by
  have hint : i32 (input.length : ℤ) = input.length := i32_eq (by omega) hlen
  rw [hint, Int.toNat_natCast, List.take_length]

/-- What the encoder stores where `o + 4` does not overflow. -/
theorem b64EncodeBasicOut_eq (hpos : 1 ≤ outMax) (hmax : outMax < 2147483648)
    (hfits : outMax ≤ 2147483644 ∨ i32 input.length ≤ 1610612733) :
    b64EncodeBasicOut input outMax =
      ⟨(), stores 0 (groupsFrom (input.take (i32 input.length).toNat) outMax 0 ++ [0])⟩ := by
  rcases take_len input with ⟨htake, hle, hint⟩
  unfold b64EncodeBasicOut
  simp only
  generalize input.take (i32 input.length).toNat = text at htake ⊢
  have hloop := b64EncodeStores_eq text (by omega) hmax (by omega) input.length 0 hpos
    (by omega)
  have hzero : ((3 * 0 : ℕ) : ℤ) = 0 := rfl
  rw [hzero] at hloop
  rw [hloop, bind_mk, stores_append]
  rfl

theorem groupsFrom_length_lt (text : List UInt8) (hpos : 1 ≤ outMax) :
    ((groupsFrom text outMax 0).length : ℤ) < outMax := by
  rw [groupsFrom, Base64.encode_length, List.length_take]
  omega

/-- Without room for a character, the encoder still stores a terminator. -/
theorem b64EncodeStores_none (hnone : outMax < 1) (text : List UInt8) (fuel : ℕ) :
    b64EncodeStores text outMax fuel 0 0 = pure 0 := by
  cases fuel with
  | zero => rfl
  | succ fuel =>
    have hfour : i32 (0 + 4) = 4 := rfl
    unfold b64EncodeStores
    exact if_neg (fun h => by omega)

/-- When the encoder stays within the array. -/
theorem b64EncodeBasicOut_within_iff (hmax : outMax < 2147483648) :
    StaysWithin outMax (b64EncodeBasicOut input outMax) ↔
      1 ≤ outMax ∧ (outMax ≤ 2147483644 ∨ i32 input.length ≤ 1610612733) := by
  constructor
  · intro hwithin
    have hpos : 1 ≤ outMax := by
      by_contra hnone
      have hterminator := hwithin (0, 0) (by
        unfold b64EncodeBasicOut
        simp only
        rw [b64EncodeStores_none (by omega)]
        exact List.mem_singleton_self _)
      omega
    refine ⟨hpos, ?_⟩
    by_contra hover
    rcases take_len input with ⟨htake, hle, -⟩
    have hpast := b64EncodeStores_overflow (input.take (i32 input.length).toNat)
      (show 2147483645 ≤ outMax by omega) (by omega) input.length 0 (by decide) (by omega)
    rcases hpast with ⟨e, he, hplace⟩
    have hbound := hwithin e (List.mem_append_left _ he)
    omega
  · rintro ⟨hpos, hfits⟩ e he
    rw [b64EncodeBasicOut_eq hpos hmax hfits] at he
    have hplace := mem_stores he
    have hlength := groupsFrom_length_lt (input.take (i32 input.length).toNat) hpos
    rw [List.length_append, List.length_singleton] at hplace
    omega

/-- Where the whole text fits, the array holds its encoding as a string. -/
theorem holdsString_encode (hmax : outMax < 2147483648)
    (hroom : 4 * ((input.length + 2) / 3 : ℕ) < outMax) (mem : ℤ → UInt8) :
    HoldsString (stored (b64EncodeBasicOut input outMax).log mem) (Base64.encode input) := by
  have hlen : (input.length : ℤ) < 2147483648 := by omega
  have hint : i32 (input.length : ℤ) = input.length := i32_eq (by omega) hlen
  have hall : groupsFrom input outMax 0 = Base64.encode input := by
    rw [groupsFrom, Nat.mul_zero, List.drop_zero, List.take_of_length_le (by omega)]
  rw [b64EncodeBasicOut_eq (by omega) hmax (by omega), take_len_of_lt hlen, hall]
  exact ⟨zero_notMem_encode input, begins_stored⟩

end EncodeBasic

/-- The round trip through an array of `outMax` bytes and any other that is large enough. -/
def RoundTrips (s : List UInt8) (outMax : ℤ) : Prop :=
  ∀ mem, ∃ text, HoldsString (stored (b64EncodeBasicOut s outMax).log mem) text ∧
    ∀ cap, IsInt cap → s.length ≤ cap →
      (b64DecodeOut text cap).value = s.length ∧
        ∀ mem', Begins (stored (b64DecodeOut text cap).log mem') s

theorem roundTrips {s : List UInt8} {outMax : ℤ} (hmax : outMax < 2147483648)
    (hroom : 4 * ((s.length + 2) / 3 : ℕ) < outMax) : RoundTrips s outMax := by
  intro mem
  refine ⟨Base64.encode s, holdsString_encode hmax hroom mem, fun cap hcap hfits => ?_⟩
  rcases b64DecodeOut_decodes hcap.2 (Base64.encode s) with ⟨ext, hlog, -, hvalue, hresult⟩
  rw [b64Decode_encode (by omega)] at hvalue hresult
  have hext : s = ext := hresult s rfl
  refine ⟨hvalue, fun mem' => ?_⟩
  rw [hlog, ← hext]
  exact begins_stored

/-- The round trip, and how far the two functions store. -/
theorem b64_round_trip_within :
    (∀ (s : List UInt8) (outMax : ℤ), 0 ∉ s → IsInt outMax →
      4 * ((s.length + 2) / 3 : ℕ) < outMax → RoundTrips s outMax) ∧
    (∀ (text : List UInt8) (outMax : ℤ), IsInt outMax →
      StaysWithin outMax (b64DecodeOut text outMax)) ∧
    ∀ (s : List UInt8) (outMax : ℤ), IsInt outMax →
      (StaysWithin outMax (b64EncodeBasicOut s outMax) ↔
        1 ≤ outMax ∧ (outMax ≤ 2147483644 ∨ i32 s.length ≤ 1610612733)) :=
  ⟨fun _ _ _ hmax hroom => roundTrips hmax.2 hroom,
    fun text _ hmax => b64DecodeOut_within hmax.2 text,
    fun _ _ hmax => b64EncodeBasicOut_within_iff hmax.2⟩

/-- An array of no bytes has no room for the terminator. -/
theorem b64_terminator_outside :
    ¬ ∀ (s : List UInt8) (outMax : ℤ), IsInt outMax →
      StaysWithin outMax (b64EncodeBasicOut s outMax) := fun h =>
  absurd (h [] 0 (by unfold IsInt; omega)) (by decide)

end Stream
end ToonVpu
