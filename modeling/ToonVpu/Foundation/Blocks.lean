import Mathlib.Data.List.Infix
import Mathlib.Tactic.Common

/-!
# Blocks — a stream of messages that end with a terminator

A block is a list that ends with the terminator and has it nowhere else.  A receiver that keeps
elements until they end with the terminator gets back the blocks that a sender has put one behind the
other, in whatever pieces they come.
-/

namespace ToonVpu
namespace Foundation
namespace Blocks

variable {α : Type*} {t b front xs ys buf rest : List α} {x : α}

/-- The terminator is at the end, and not before it. -/
structure IsBlock (t b : List α) : Prop where
  ends : t <:+ b
  first : ∀ pre, pre <+: b → t <:+ pre → pre = b

/-! ## Where a terminator can stand -/

/-- A list does not go across a place that has an element of another kind on one side. -/
theorem infix_append_of_last (hlast : ∀ x ∈ xs.getLast?, x ∉ t) :
    t <:+: xs ++ ys ↔ t <:+: xs ∨ t <:+: ys := by
  rw [List.infix_append_iff]
  refine ⟨?_, fun h => h.elim .inl fun h => .inr (.inl h)⟩
  rintro (h | h | ⟨t₁, t₂, rfl, hsuffix, hbefore⟩)
  · exact .inl h
  · exact .inr h
  · rcases t₁.eq_nil_or_concat with rfl | ⟨t₁, x, rfl⟩
    · exact .inr hbefore.isInfix
    · rcases hsuffix with ⟨a, rfl⟩
      exact absurd (hlast x (by simp)) (by simp)

theorem infix_append_of_head (hhead : ∀ y ∈ ys.head?, y ∉ t) :
    t <:+: xs ++ ys ↔ t <:+: xs ∨ t <:+: ys := by
  rw [List.infix_append_iff]
  refine ⟨?_, fun h => h.elim .inl fun h => .inr (.inl h)⟩
  rintro (h | h | ⟨t₁, t₂, rfl, hsuffix, hbefore⟩)
  · exact .inl h
  · exact .inr h
  · cases t₂ with
    | nil => exact .inl (by simpa using hsuffix.isInfix)
    | cons y t₂ =>
      rcases hbefore with ⟨a, rfl⟩
      exact absurd (hhead y (by simp)) (by simp)

/-- What a block is made of: a front without the terminator, which does not end like one. -/
theorem isBlock_append (hlast : ∀ x ∈ front.getLast?, x ∉ t) (ht : t ≠ []) :
    IsBlock t (front ++ t) ↔ ¬ t <:+: front := by
  have hpos := List.length_pos_of_ne_nil ht
  constructor
  · rintro h ⟨a, c, rfl⟩
    have hpre := h.first (a ++ t) ⟨c ++ t, by simp⟩ (List.suffix_append a t)
    have hlen := congrArg List.length hpre
    simp only [List.length_append] at hlen
    omega
  · intro hnot
    refine ⟨List.suffix_append front t, fun pre hpre hends => ?_⟩
    rcases hpre with ⟨post, hpost⟩
    rcases post.eq_nil_or_concat with rfl | ⟨post, x, rfl⟩
    · simpa using hpost
    -- otherwise the terminator would be in what comes before the last element
    have hdrop : pre ++ post = front ++ t.dropLast := by
      have h := congrArg List.dropLast hpost
      rwa [List.concat_eq_append, ← List.append_assoc, List.dropLast_concat,
        List.dropLast_append_of_ne_nil ht] at h
    have hin : t <:+: front ++ t.dropLast := by
      rw [← hdrop]
      exact hends.isInfix.trans (List.prefix_append pre post).isInfix
    rcases (infix_append_of_last hlast).mp hin with h | h
    · exact absurd h hnot
    · have hlen := h.length_le
      rw [List.length_dropLast] at hlen
      omega

/-! ## Lines -/

/-- A line that can stand in a block of lines, where `e` ends a line. -/
structure IsLine (e l : List α) : Prop where
  begins : ∃ x ∈ l.head?, x ∉ e
  ends : ∃ x ∈ l.getLast?, x ∉ e
  inner : ¬ e ++ e <:+: l

theorem IsLine.ends_both {e l : List α} (h : IsLine e l) : ∀ x ∈ l.getLast?, x ∉ e ++ e := by
  rcases h.ends with ⟨x, hx, hnot⟩
  rintro y hy hmem
  obtain rfl : x = y := Option.some.inj ((Option.mem_def.mp hx).symm.trans (Option.mem_def.mp hy))
  exact hnot ((List.mem_append.mp hmem).elim id id)

theorem not_mem_of_head {e : List α} (h : ∃ x ∈ rest.head?, x ∉ e) :
    ∀ x ∈ rest.head?, x ∉ e ++ e := by
  rcases h with ⟨x, hx, hnot⟩
  rintro y hy hmem
  obtain rfl : x = y := Option.some.inj ((Option.mem_def.mp hx).symm.trans (Option.mem_def.mp hy))
  exact hnot ((List.mem_append.mp hmem).elim id id)

theorem isLine_of_forall {e l : List α} (hne : l ≠ []) (h : ∀ x ∈ l, x ∉ e) (he : e ≠ []) :
    IsLine e l where
  begins := ⟨l.head hne, List.head?_eq_some_head hne, h _ (List.head_mem hne)⟩
  ends := ⟨l.getLast hne, List.getLast?_eq_some_getLast hne, h _ (List.getLast_mem hne)⟩
  inner hsub := by
    rcases List.exists_cons_of_ne_nil he with ⟨x, e', rfl⟩
    exact h x (hsub.subset (by simp)) List.mem_cons_self

/-- Something between two lines makes one line of them, when it has no end of two lines itself. -/
theorem IsLine.around {e k l mid : List α} (hk : IsLine e k) (hl : IsLine e l)
    (hmid : ¬ e ++ e <:+: mid) : IsLine e (k ++ mid ++ l) where
  begins := by
    rcases hk.begins with ⟨x, hx, hnot⟩
    exact ⟨x, by rw [List.append_assoc, List.head?_append, Option.mem_def.mp hx]; rfl, hnot⟩
  ends := by
    rcases hl.ends with ⟨x, hx, hnot⟩
    exact ⟨x, by rw [List.getLast?_append, Option.mem_def.mp hx]; rfl, hnot⟩
  inner := by
    rw [infix_append_of_head (not_mem_of_head hl.begins), infix_append_of_last hk.ends_both]
    rintro ((h | h) | h)
    · exact hk.inner h
    · exact hmid h
    · exact hl.inner h

/-- The lines, each with its end. -/
def linesText (e : List α) (lines : List (List α)) : List α := lines.flatMap (· ++ e)

@[simp] theorem linesText_cons {e l : List α} {lines : List (List α)} :
    linesText e (l :: lines) = l ++ e ++ linesText e lines := rfl

theorem linesText_append {e : List α} {lines more : List (List α)} :
    linesText e (lines ++ more) = linesText e lines ++ linesText e more :=
  List.flatMap_append

/-- What is not in a line and not in what follows it is not in both. -/
theorem inner_append {e l : List α} (he : e ≠ []) (hl : IsLine e l)
    (hhead : ∃ y ∈ rest.head?, y ∉ e) (hrest : ¬ e ++ e <:+: rest) :
    ¬ e ++ e <:+: l ++ e ++ rest := by
  have hpos := List.length_pos_of_ne_nil he
  rw [List.append_assoc, infix_append_of_last hl.ends_both,
    infix_append_of_head (not_mem_of_head hhead)]
  rintro (h | h | h)
  · exact hl.inner h
  · have hlen := h.length_le
    rw [List.length_append] at hlen
    omega
  · exact hrest h

theorem linesText_inner {e l : List α} {lines : List (List α)} (he : e ≠ [])
    (hlines : ∀ k ∈ lines, IsLine e k) (hl : IsLine e l) :
    ¬ e ++ e <:+: linesText e lines ++ l ∧ ∃ x ∈ (linesText e lines ++ l).head?, x ∉ e := by
  induction lines with
  | nil => exact ⟨hl.inner, hl.begins⟩
  | cons k lines ih =>
    rcases ih fun k hk => hlines k (List.mem_cons_of_mem _ hk) with ⟨hinner, hhead⟩
    have hk := hlines k List.mem_cons_self
    rw [linesText_cons, List.append_assoc]
    refine ⟨inner_append he hk hhead hinner, ?_⟩
    rcases hk.begins with ⟨x, hx, hnot⟩
    refine ⟨x, ?_, hnot⟩
    cases k with
    | nil => cases hx
    | cons y k => exact hx

/-- Some lines and an empty line are a block. -/
theorem isBlock_lines {e l : List α} {lines : List (List α)} (he : e ≠ [])
    (hlines : ∀ k ∈ lines, IsLine e k) (hl : IsLine e l) :
    IsBlock (e ++ e) (linesText e (lines ++ [l]) ++ e) := by
  have htext : linesText e (lines ++ [l]) ++ e = (linesText e lines ++ l) ++ (e ++ e) := by
    rw [linesText_append]
    simp [linesText]
  rw [htext, isBlock_append ?_ (by simpa using he)]
  · exact (linesText_inner he hlines hl).1
  · rcases hl.ends with ⟨x, hx, -⟩
    have hlast : (linesText e lines ++ l).getLast? = l.getLast? := by
      rw [List.getLast?_append, Option.mem_def.mp hx]
      rfl
    rw [hlast]
    exact hl.ends_both

/-! ## The receiver -/

variable [DecidableEq α]

/-- One more element: the blocks that it completes, and what is kept. -/
def absorb (t buf : List α) (x : α) : List (List α) × List α :=
  if t <:+ buf ++ [x] then ([buf ++ [x]], []) else ([], buf ++ [x])

/-- The blocks in a stream that is received behind what was kept. -/
def receive (t : List α) : (buf stream : List α) → List (List α) × List α
  | buf, [] => ([], buf)
  | buf, x :: stream =>
    let (done, buf) := absorb t buf x
    let (more, buf) := receive t buf stream
    (done ++ more, buf)

theorem receive_append :
    receive t buf (xs ++ ys) =
      ((receive t buf xs).1 ++ (receive t (receive t buf xs).2 ys).1,
        (receive t (receive t buf xs).2 ys).2) := by
  induction xs generalizing buf with
  | nil => rfl
  | cons x xs ih =>
    rw [List.cons_append, receive, receive]
    simp only [ih, List.append_assoc]

/-- Nothing is complete before the terminator is there. -/
theorem receive_open (h : ∀ pre, pre <+: xs → pre ≠ [] → ¬ t <:+ buf ++ pre) :
    receive t buf xs = ([], buf ++ xs) := by
  induction xs generalizing buf with
  | nil => simp [receive]
  | cons x xs ih =>
    have hnot : ¬ t <:+ buf ++ [x] := h [x] ⟨xs, rfl⟩ (List.cons_ne_nil x [])
    have hrest : receive t (buf ++ [x]) xs = ([], buf ++ [x] ++ xs) := ih fun pre hpre _ => by
      rw [List.append_assoc]
      exact h (x :: pre) (List.cons_prefix_cons.mpr ⟨rfl, hpre⟩) (List.cons_ne_nil x pre)
    rw [receive, absorb, if_neg hnot]
    simp only [hrest, List.append_assoc]
    rfl

/-- A part of a block is kept. -/
theorem receive_part (hb : IsBlock t b) (hxs : xs <+: b) (hne : xs ≠ b) :
    receive t [] xs = ([], xs) :=
  receive_open fun pre hpre _ hends => by
    have hwhole := hb.first pre (hpre.trans hxs) hends
    rw [hwhole] at hpre
    exact hne (hxs.eq_of_length_le hpre.length_le)

/-- A block is received. -/
theorem receive_block (hb : IsBlock t b) (ht : t ≠ []) : receive t [] b = ([b], []) := by
  rcases b.eq_nil_or_concat with rfl | ⟨front, x, rfl⟩
  · exact absurd (List.suffix_nil.mp hb.ends) ht
  · rw [List.concat_eq_append] at hb ⊢
    have hpart := receive_part hb (List.prefix_append front [x]) (by simp)
    rw [receive_append, hpart, receive, absorb, if_pos hb.ends]
    rfl

/-- **Framing.** From blocks one behind the other, and a part of one more, the receiver gets the
blocks. -/
theorem receive_blocks {blocks : List (List α)} (hblocks : ∀ b ∈ blocks, IsBlock t b) (ht : t ≠ [])
    (hrest : ∃ b, IsBlock t b ∧ rest <+: b ∧ rest ≠ b) :
    receive t [] (blocks.flatten ++ rest) = (blocks, rest) := by
  induction blocks with
  | nil =>
    rcases hrest with ⟨b, hb, hbefore, hne⟩
    exact receive_part hb hbefore hne
  | cons b blocks ih =>
    have hmore := ih fun c hc => hblocks c (List.mem_cons_of_mem _ hc)
    rw [List.flatten_cons, List.append_assoc, receive_append,
      receive_block (hblocks b List.mem_cons_self) ht, hmore]
    rfl

end Blocks
end Foundation
end ToonVpu
