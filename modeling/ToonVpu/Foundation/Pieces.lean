import Mathlib.Data.List.Basic
import Mathlib.Tactic.Common

/-!
# Pieces — a stream that is read in pieces

A reader of a stream gets at most what it asks for and often less; how much is up to the other side.
What a program does with a stream should depend on the elements alone.

* `Source`: what is still in the stream and how long the pieces are that the reads return;
* `Source.read`: one read, which returns nothing only at the end of the stream;
* `Source.readFull`: reads until everything asked for is there, and `readFull_eq`: it depends on the
  stream alone.
-/

namespace ToonVpu
namespace Foundation

universe u

/-- The rest of a stream; the read after `k` more ones returns at most `pieces k` elements, or
one. -/
structure Source (α : Type u) where
  rest : List α
  pieces : ℕ → ℕ

namespace Source

variable {α : Type u} {s : Source α} {n : ℕ}

/-- How many elements a read of up to `n` returns. -/
def taken (s : Source α) (n : ℕ) : ℕ := min (max 1 (s.pieces 0)) n

/-- A read of up to `n` elements. -/
def read (s : Source α) (n : ℕ) : List α × Source α :=
  (s.rest.take (s.taken n), ⟨s.rest.drop (s.taken n), fun k => s.pieces (k + 1)⟩)

@[simp] theorem read_fst_append : (s.read n).1 ++ (s.read n).2.rest = s.rest :=
  List.take_append_drop _ _

theorem read_length_le : (s.read n).1.length ≤ n :=
  Nat.le_trans (List.length_take_le _ _) (Nat.min_le_right _ _)

/-- Nothing is returned only at the end. -/
theorem read_eq_nil_iff (hn : 0 < n) : (s.read n).1 = [] ↔ s.rest = [] := by
  have hpos : s.taken n ≠ 0 := by
    unfold taken
    omega
  simp [read, hpos]

/-- A single element does not come in pieces. -/
theorem read_one_cons {x : α} {xs : List α} (h : s.rest = x :: xs) :
    (s.read 1).1 = [x] ∧ (s.read 1).2.rest = xs := by
  have hone : s.taken 1 = 1 := by
    unfold taken
    omega
  rw [read, hone, h]
  exact ⟨rfl, rfl⟩

theorem read_one_nil (h : s.rest = []) : (s.read 1).1 = [] ∧ (s.read 1).2.rest = [] := by
  rw [read, h]
  exact ⟨List.take_nil, List.drop_nil⟩

/-- The loop of reads until `n` elements are there; `got` are. -/
def readLoop : ℕ → Source α → ℕ → List α → Option (List α) × Source α
  | 0, s, _, _ => (none, s)
  | fuel + 1, s, n, got =>
    if got.length < n then
      match s.read (n - got.length) with
      | ([], s) => (none, s)
      | (x :: xs, s) => readLoop fuel s n (got ++ x :: xs)
    else
      (some got, s)

/-- Reads until `n` elements are there; `none` when the stream ends before. -/
def readFull (s : Source α) (n : ℕ) : Option (List α) × Source α := readLoop (n + 1) s n []

/-- Each round gets an element, so there are rounds enough. -/
theorem readLoop_eq (fuel : ℕ) (s : Source α) (got : List α) (hgot : got.length ≤ n)
    (hfuel : n - got.length < fuel) :
    (readLoop fuel s n got).1 =
        (if n ≤ got.length + s.rest.length then some (got ++ s.rest.take (n - got.length))
          else none) ∧
      (readLoop fuel s n got).2.rest = s.rest.drop (n - got.length) := by
  induction fuel generalizing s got with
  | zero => omega
  | succ fuel ih =>
    rw [readLoop]
    by_cases hlt : got.length < n
    · rw [if_pos hlt]
      have happend := read_fst_append (s := s) (n := n - got.length)
      have hle := read_length_le (s := s) (n := n - got.length)
      have hnil := read_eq_nil_iff (s := s) (n := n - got.length) (by omega)
      rcases hread : s.read (n - got.length) with ⟨piece, s'⟩
      rw [hread] at happend hle hnil
      cases piece with
      | nil =>
        -- The stream is at its end.
        have hend : s.rest = [] := hnil.mp rfl
        have hend' : s'.rest = [] := by simpa [hend] using happend
        have hshort : ¬ n ≤ got.length + s.rest.length := by
          rw [hend, List.length_nil]
          omega
        rw [if_neg hshort, hend, List.drop_nil]
        exact ⟨rfl, hend'⟩
      | cons x xs =>
        simp only at happend hle
        have hlen : (got ++ x :: xs).length = got.length + (x :: xs).length :=
          List.length_append
        have hpos : 0 < (x :: xs).length := Nat.succ_pos _
        obtain ⟨hres, hrest⟩ := ih s' (got ++ x :: xs) (by omega) (by omega)
        have hsplit : n - got.length = (x :: xs).length + (n - (got ++ x :: xs).length) := by
          omega
        have hcond : n ≤ (got ++ x :: xs).length + s'.rest.length ↔
            n ≤ got.length + s.rest.length := by
          rw [← happend, hlen, List.length_append, Nat.add_assoc]
        have htake : s.rest.take (n - got.length) =
            x :: xs ++ s'.rest.take (n - (got ++ x :: xs).length) := by
          rw [← happend, hsplit, List.take_length_add_append]
        have hdrop : s.rest.drop (n - got.length) =
            s'.rest.drop (n - (got ++ x :: xs).length) := by
          rw [← happend, hsplit, List.drop_length_add_append]
        simp only [hres, hrest, hcond, htake, hdrop, List.append_assoc, and_self]
    · have hsame : got.length = n := by omega
      rw [if_neg hlt, if_pos (by omega), hsame, Nat.sub_self, List.take_zero, List.append_nil,
        List.drop_zero]
      exact ⟨rfl, rfl⟩

/-- What is returned depends on the stream alone. -/
theorem readFull_eq (s : Source α) (n : ℕ) :
    (s.readFull n).1 = (if n ≤ s.rest.length then some (s.rest.take n) else none) ∧
      (s.readFull n).2.rest = s.rest.drop n := by
  have h := readLoop_eq (n := n) (n + 1) s [] (Nat.zero_le n) (by simp)
  simpa [readFull] using h

/-- The elements at the front of the stream. -/
theorem readFull_append {front rest : List α} (h : s.rest = front ++ rest) :
    (s.readFull front.length).1 = some front ∧ (s.readFull front.length).2.rest = rest := by
  obtain ⟨hres, hrest⟩ := readFull_eq s front.length
  rw [hres, hrest, h, List.length_append, if_pos (Nat.le_add_right _ _)]
  simp

/-- A read of up to `m` elements is never cut short of what is there. -/
def Wide (m : ℕ) (s : Source α) : Prop := ∀ k, m ≤ s.pieces k

theorem Wide.read {m : ℕ} (h : s.Wide m) : (s.read n).2.Wide m := fun k => h (k + 1)

theorem Wide.readLoop {m : ℕ} (fuel : ℕ) (s : Source α) (got : List α) (h : s.Wide m) :
    (readLoop fuel s n got).2.Wide m := by
  induction fuel generalizing s got with
  | zero => exact h
  | succ fuel ih =>
    rw [Source.readLoop]
    split
    · have hnext := h.read (n := n - got.length)
      generalize s.read (n - got.length) = result at hnext ⊢
      rcases result with ⟨piece, s'⟩
      cases piece with
      | nil => exact hnext
      | cons x xs => exact ih s' _ hnext
    · exact h

theorem Wide.readFull {m : ℕ} (h : s.Wide m) : (s.readFull n).2.Wide m :=
  Wide.readLoop (n + 1) s [] h

end Source

end Foundation
end ToonVpu
