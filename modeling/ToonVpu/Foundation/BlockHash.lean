import Mathlib.Data.List.Basic
import Mathlib.Tactic.Common

/-!
# BlockHash — folding a message over its blocks

An iterated hash folds a compression function over the blocks of a message.  A program that is given
the message in pieces keeps the state after the whole blocks and the bytes that follow them.  This
module defines both parts and says how they change when bytes are added.
-/

namespace ToonVpu
namespace Foundation
namespace BlockHash

variable {α σ : Type*}

/-- The fold over the first `n` blocks of `B` elements. -/
def foldBlocks (f : σ → List α → σ) (B : ℕ) : ℕ → σ → List α → σ
  | 0, s, _ => s
  | n + 1, s, xs => foldBlocks f B n (f s (xs.take B)) (xs.drop B)

/-- The fold over all whole blocks. -/
def absorb (f : σ → List α → σ) (B : ℕ) (s : σ) (xs : List α) : σ :=
  foldBlocks f B (xs.length / B) s xs

/-- What follows the whole blocks. -/
def remainder (B : ℕ) (xs : List α) : List α := xs.drop (B * (xs.length / B))

variable {f : σ → List α → σ} {B : ℕ} {s : σ} {xs ys : List α}

theorem remainder_length (B : ℕ) (xs : List α) : (remainder B xs).length = xs.length % B := by
  unfold remainder
  rw [List.length_drop]
  exact (Nat.mod_eq_sub_mul_div).symm

theorem absorb_of_lt (h : xs.length < B) : absorb f B s xs = s := by
  unfold absorb
  rw [Nat.div_eq_of_lt h]
  rfl

theorem remainder_of_lt (h : xs.length < B) : remainder B xs = xs := by
  unfold remainder
  rw [Nat.div_eq_of_lt h, Nat.mul_zero, List.drop_zero]

theorem div_drop (hB : 0 < B) (h : B ≤ xs.length) :
    xs.length / B = (xs.drop B).length / B + 1 := by
  rw [List.length_drop]
  exact Nat.div_eq_sub_div hB h

/-- The first block. -/
theorem absorb_block (hB : 0 < B) (h : B ≤ xs.length) :
    absorb f B s xs = absorb f B (f s (xs.take B)) (xs.drop B) := by
  unfold absorb
  rw [div_drop hB h, foldBlocks]

theorem remainder_block (hB : 0 < B) (h : B ≤ xs.length) :
    remainder B xs = remainder B (xs.drop B) := by
  unfold remainder
  rw [div_drop hB h, List.drop_drop, Nat.mul_succ, Nat.add_comm]

/-- What is added goes behind the remainder. -/
theorem absorb_append (hB : 0 < B) (s : σ) (xs ys : List α) :
    absorb f B s (xs ++ ys) = absorb f B (absorb f B s xs) (remainder B xs ++ ys) := by
  rcases Nat.lt_or_ge xs.length B with hlt | hge
  · rw [absorb_of_lt hlt, remainder_of_lt hlt]
  · have hlen : B ≤ (xs ++ ys).length := by
      rw [List.length_append]
      exact Nat.le_trans hge (Nat.le_add_right _ _)
    have hshort : (xs.drop B).length < xs.length := by
      rw [List.length_drop]
      exact Nat.sub_lt (Nat.lt_of_lt_of_le hB hge) hB
    calc absorb f B s (xs ++ ys)
        = absorb f B (f s (xs.take B)) (xs.drop B ++ ys) := by
          rw [absorb_block hB hlen, List.take_append_of_le_length hge,
            List.drop_append_of_le_length hge]
      _ = absorb f B (absorb f B (f s (xs.take B)) (xs.drop B))
            (remainder B (xs.drop B) ++ ys) := absorb_append hB _ _ ys
      _ = absorb f B (absorb f B s xs) (remainder B xs ++ ys) := by
          rw [← absorb_block hB hge, ← remainder_block hB hge]
termination_by xs.length

theorem remainder_append (hB : 0 < B) (xs ys : List α) :
    remainder B (xs ++ ys) = remainder B (remainder B xs ++ ys) := by
  rcases Nat.lt_or_ge xs.length B with hlt | hge
  · rw [remainder_of_lt hlt]
  · have hlen : B ≤ (xs ++ ys).length := by
      rw [List.length_append]
      exact Nat.le_trans hge (Nat.le_add_right _ _)
    have hshort : (xs.drop B).length < xs.length := by
      rw [List.length_drop]
      exact Nat.sub_lt (Nat.lt_of_lt_of_le hB hge) hB
    rw [remainder_block hB hlen, List.drop_append_of_le_length hge, remainder_append hB (xs.drop B),
      ← remainder_block hB hge]
termination_by xs.length

end BlockHash
end Foundation
end ToonVpu
