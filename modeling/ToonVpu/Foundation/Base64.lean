import Mathlib.Data.List.Basic
import Mathlib.Tactic.Common

/-!
# Base64 — the encoding of bytes in groups of three

Three bytes are four characters of an alphabet of 64; the last group is filled up with `=`.
-/

namespace ToonVpu
namespace Foundation
namespace Base64

/-- `A` to `Z`, `a` to `z`, `0` to `9`, `+` and `/`. -/
def alphabet (n : ℕ) : UInt8 :=
  if n < 26 then UInt8.ofNat (65 + n)
  else if n < 52 then UInt8.ofNat (97 + (n - 26))
  else if n < 62 then UInt8.ofNat (48 + (n - 52))
  else if n = 62 then 43
  else 47

/-- The character `=`. -/
def padding : UInt8 := 61

def encode : List UInt8 → List UInt8
  | [] => []
  | [a] => [alphabet (a.toNat / 4), alphabet (a.toNat % 4 * 16), padding, padding]
  | [a, b] =>
    [alphabet (a.toNat / 4), alphabet (a.toNat % 4 * 16 + b.toNat / 16),
      alphabet (b.toNat % 16 * 4), padding]
  | a :: b :: c :: rest =>
    alphabet (a.toNat / 4) :: alphabet (a.toNat % 4 * 16 + b.toNat / 16) ::
      alphabet (b.toNat % 16 * 4 + c.toNat / 64) :: alphabet (c.toNat % 64) :: encode rest

/-- What holds of the alphabet and the padding holds of an encoding. -/
theorem forall_mem_encode {p : UInt8 → Prop} (halphabet : ∀ n < 64, p (alphabet n))
    (hpadding : p padding) (xs : List UInt8) : ∀ c ∈ encode xs, p c := by
  have hfirst (a : UInt8) : p (alphabet (a.toNat / 4)) := halphabet _ (by have := a.toNat_lt; omega)
  have hsecond (a b : UInt8) : p (alphabet (a.toNat % 4 * 16 + b.toNat / 16)) :=
    halphabet _ (by have := b.toNat_lt; omega)
  have hthird (b c : UInt8) : p (alphabet (b.toNat % 16 * 4 + c.toNat / 64)) :=
    halphabet _ (by have := c.toNat_lt; omega)
  fun_induction encode xs with
  | case1 => exact fun c hc => nomatch hc
  | case2 a =>
    simp only [List.forall_mem_cons]
    exact ⟨hfirst a, halphabet _ (by omega), hpadding, hpadding, fun c hc => nomatch hc⟩
  | case3 a b =>
    simp only [List.forall_mem_cons]
    exact ⟨hfirst a, hsecond a b, halphabet _ (by omega), hpadding, fun c hc => nomatch hc⟩
  | case4 a b c rest ih =>
    simp only [List.forall_mem_cons]
    exact ⟨hfirst a, hsecond a b, hthird b c, halphabet _ (Nat.mod_lt _ (by decide)), ih⟩

/-- Each group that is begun has four characters. -/
theorem encode_length (xs : List UInt8) : (encode xs).length = 4 * ((xs.length + 2) / 3) := by
  fun_induction encode xs with
  | case1 => rfl
  | case2 a => simp
  | case3 a b => simp
  | case4 a b c rest ih =>
    simp only [List.length_cons, ih]
    omega

/-- The beginning of a text has the encoding of the text only when it is all of it, up to the last
group. -/
theorem encode_take_eq_iff {xs : List UInt8} (g : ℕ) :
    encode (xs.take (3 * g)) = encode xs ↔ xs.length ≤ 3 * g := by
  constructor
  · intro h
    have hlen := congrArg List.length h
    rw [encode_length, encode_length, List.length_take] at hlen
    omega
  · intro h
    rw [List.take_of_length_le h]

end Base64
end Foundation
end ToonVpu
