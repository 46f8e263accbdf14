import ToonVpu.Foundation.Logged
import ToonVpu.Foundation.Machine

/-!
# CInt — C expressions with what they risk

A computation returns the value that two's-complement arithmetic gives and lists what it did on the
way: the exact result of every signed and unsigned expression, every divisor, every index into an
array, and every loop that did not end.  A computation is sound when all of these are fine: nothing
overflows, no divisor is zero, no index lies outside of its array and every loop ends.

`loop` repeats a body that either goes on with a new state or returns.
-/

namespace ToonVpu
namespace Foundation
namespace CInt

open Logged

/-! ## Effects -/

inductive Effect
  /-- The exact result of a signed expression. -/
  | signed (x : ℤ)
  /-- The exact result of an unsigned expression. -/
  | unsigned (x : ℤ)
  | divisor (y : ℤ)
  | index (i : ℤ) (len : ℕ)
  /-- A loop that does not end. -/
  | endless
  deriving DecidableEq, Repr

/-- The effect is what the program means. -/
def Effect.Fine : Effect → Prop
  | .signed x => -2147483648 ≤ x ∧ x < 2147483648
  | .unsigned x => 0 ≤ x ∧ x < 4294967296
  | .divisor y => y ≠ 0
  | .index i len => 0 ≤ i ∧ i < len
  | .endless => False

instance : DecidablePred Effect.Fine
  | .signed _ => inferInstanceAs (Decidable (_ ∧ _))
  | .unsigned _ => inferInstanceAs (Decidable (_ ∧ _))
  | .divisor _ => inferInstanceAs (Decidable (_ ≠ _))
  | .index _ _ => inferInstanceAs (Decidable (_ ∧ _))
  | .endless => inferInstanceAs (Decidable False)

abbrev C := Logged Effect

/-- All effects of the computation are fine. -/
def Sound {α : Type} (x : C α) : Prop := ∀ e ∈ x.log, e.Fine

instance {α : Type} (x : C α) : Decidable (Sound x) :=
  inferInstanceAs (Decidable (∀ e ∈ x.log, e.Fine))

/-- The computation is sound and returns `a`. -/
abbrev Gives {α : Type} (x : C α) (a : α) : Prop := Yields Effect.Fine x a

/-! ## Operations -/

/-- A signed expression. -/
def int (x : ℤ) : C ℤ := ⟨i32 x, [.signed x]⟩

/-- An unsigned expression. -/
def uint (x : ℤ) : C ℕ := ⟨u32 x, [.unsigned x]⟩

/-- The quotient of two `int`s. -/
def quot (x y : ℤ) : C ℤ := ⟨i32 (x.tdiv y), [.divisor y, .signed (x.tdiv y)]⟩

/-- The remainder of two `int`s; it is computed together with the quotient. -/
def rem (x y : ℤ) : C ℤ := ⟨x.tmod y, [.divisor y, .signed (x.tdiv y)]⟩

/-- The remainder of two unsigned numbers. -/
def urem (x y : ℕ) : C ℕ := ⟨x % y, [.divisor y]⟩

/-- An access to element `i` of an array of `len`. -/
def access (i : ℤ) (len : ℕ) : C Unit := ⟨(), [.index i len]⟩

/-- Repeats `body` for at most `fuel` rounds; `out` stands for the result of a loop that does not
end. -/
def loop {σ β : Type} (out : β) (body : σ → C (σ ⊕ β)) : ℕ → σ → C β
  | 0, _ => ⟨out, [.endless]⟩
  | fuel + 1, s => do
    match ← body s with
    | .inl s => loop out body fuel s
    | .inr b => pure b

/-- The number of values of an `int`.  A loop that an `int` drives and that runs for longer runs for
ever. -/
def intValues : ℕ := 4294967296

/-! ## Rules -/

section Rules

variable {α β σ : Type}

theorem sound_pure (a : α) : Sound (pure a : C α) := fun _ he => absurd he List.not_mem_nil

theorem sound_bind {x : C α} {f : α → C β} : Sound (x >>= f) ↔ Sound x ∧ Sound (f x.value) := by
  constructor
  · intro h
    exact ⟨fun e he => h e (List.mem_append_left _ he), fun e he => h e (List.mem_append_right _ he)⟩
  · rintro ⟨hx, hf⟩ e he
    rcases List.mem_append.mp he with he | he
    · exact hx e he
    · exact hf e he

theorem value_bind (x : C α) (f : α → C β) : (x >>= f).value = (f x.value).value := rfl

theorem value_uint {x : ℤ} {n : ℕ} (h : x = n) (hn : n < 4294967296) : (uint x).value = n :=
  u32_eq h hn

theorem sound_uint {x : ℤ} : Sound (uint x) ↔ 0 ≤ x ∧ x < 4294967296 := List.forall_mem_singleton

theorem sound_int {x : ℤ} : Sound (int x) ↔ -2147483648 ≤ x ∧ x < 2147483648 :=
  List.forall_mem_singleton

theorem value_int {x : ℤ} (h : Sound (int x)) : (int x).value = x :=
  i32_eq (sound_int.mp h).1 (sound_int.mp h).2

theorem sound_access {i : ℤ} {len : ℕ} : Sound (access i len) ↔ 0 ≤ i ∧ i < len :=
  List.forall_mem_singleton

theorem sound_quot {x y : ℤ} :
    Sound (quot x y) ↔ y ≠ 0 ∧ -2147483648 ≤ x.tdiv y ∧ x.tdiv y < 2147483648 := by
  have h : Sound (quot x y) ↔ _ ∧ ∀ e ∈ [Effect.signed (x.tdiv y)], e.Fine := List.forall_mem_cons
  rw [h, List.forall_mem_singleton]
  rfl

theorem value_quot {x y : ℤ} (h : Sound (quot x y)) : (quot x y).value = x.tdiv y :=
  i32_eq (sound_quot.mp h).2.1 (sound_quot.mp h).2.2

theorem sound_rem {x y : ℤ} :
    Sound (rem x y) ↔ y ≠ 0 ∧ -2147483648 ≤ x.tdiv y ∧ x.tdiv y < 2147483648 :=
  sound_quot (x := x) (y := y)

/-- One quotient of two `int`s is none. -/
theorem tdiv_fits_iff {x y : ℤ} (hl : -2147483648 ≤ x) (hu : x < 2147483648) (hy : y ≠ 0) :
    (-2147483648 ≤ x.tdiv y ∧ x.tdiv y < 2147483648) ↔ ¬ (x = -2147483648 ∧ y = -1) := by
  have habs : (x.tdiv y).natAbs = x.natAbs / y.natAbs := Int.natAbs_tdiv x y
  rcases Nat.lt_or_ge y.natAbs 2 with hone | htwo
  · have hcases : y = 1 ∨ y = -1 := by omega
    rcases hcases with rfl | rfl
    · rw [Int.tdiv_one]
      omega
    · rw [Int.tdiv_neg, Int.tdiv_one]
      omega
  · have hle : x.natAbs / y.natAbs ≤ x.natAbs / 2 := Nat.div_le_div_left htwo (by decide)
    omega

theorem gives_int {x : ℤ} (hl : -2147483648 ≤ x) (hu : x < 2147483648) :
    Gives (int x) x :=
  ⟨i32_eq hl hu, List.forall_mem_singleton.mpr ⟨hl, hu⟩⟩

theorem gives_uint {x : ℤ} {n : ℕ} (h : x = n) (hn : n < 4294967296) :
    Gives (uint x) n := by
  refine ⟨u32_eq h hn, List.forall_mem_singleton.mpr ?_⟩
  subst h
  exact ⟨Int.natCast_nonneg n, by omega⟩

theorem gives_quot {x y : ℤ} (hy : y ≠ 0) (hl : -2147483648 ≤ x.tdiv y)
    (hu : x.tdiv y < 2147483648) : Gives (quot x y) (x.tdiv y) :=
  ⟨i32_eq hl hu, List.forall_mem_cons.mpr ⟨hy, List.forall_mem_singleton.mpr ⟨hl, hu⟩⟩⟩

theorem gives_rem {x y : ℤ} (hy : y ≠ 0) (hl : -2147483648 ≤ x.tdiv y)
    (hu : x.tdiv y < 2147483648) : Gives (rem x y) (x.tmod y) :=
  ⟨rfl, List.forall_mem_cons.mpr ⟨hy, List.forall_mem_singleton.mpr ⟨hl, hu⟩⟩⟩

/-- Division of numbers that are not negative. -/
theorem gives_quot_nat {x y : ℕ} (hy : 0 < y) (hx : x < 2147483648) :
    Gives (quot x y) (x / y : ℕ) := by
  have hle : x / y ≤ x := Nat.div_le_self x y
  have hdiv : (x : ℤ).tdiv y = (x / y : ℕ) := (Int.ofNat_tdiv x y).symm
  generalize x / y = q at hle hdiv ⊢
  refine (gives_quot ?_ ?_ ?_).of_eq hdiv
  · omega
  · rw [hdiv]
    omega
  · rw [hdiv]
    omega

theorem gives_rem_nat {x y : ℕ} (hy : 0 < y) (hx : x < 2147483648) :
    Gives (rem x y) (x % y : ℕ) := by
  have hle : x / y ≤ x := Nat.div_le_self x y
  have hdiv : (x : ℤ).tdiv y = (x / y : ℕ) := (Int.ofNat_tdiv x y).symm
  generalize x / y = q at hle hdiv
  refine (gives_rem ?_ ?_ ?_).of_eq (Int.ofNat_tmod x y).symm
  · omega
  · rw [hdiv]
    omega
  · rw [hdiv]
    omega

theorem gives_urem {x y : ℕ} (hy : 0 < y) : Gives (urem x y) (x % y) := by
  have hfine : (y : ℤ) ≠ 0 := by omega
  exact ⟨rfl, List.forall_mem_singleton.mpr hfine⟩

theorem gives_access {i : ℤ} {len : ℕ} (hl : 0 ≤ i) (hu : i < len) :
    Gives (access i len) () :=
  ⟨rfl, List.forall_mem_singleton.mpr ⟨hl, hu⟩⟩

variable {out : β} {body : σ → C (σ ⊕ β)} {s t : σ} {b : β}

/-- A round that goes on. -/
theorem gives_loop_next (fuel : ℕ) (hbody : Gives (body s) (.inl t))
    (hrest : Gives (loop out body fuel t) b) :
    Gives (loop out body (fuel + 1) s) b := by
  rw [loop]
  exact hbody.bind hrest

/-- The last round. -/
theorem gives_loop_done (fuel : ℕ) (hbody : Gives (body s) (.inr b)) :
    Gives (loop out body (fuel + 1) s) b := by
  rw [loop]
  exact hbody.bind (Yields.pure b)

end Rules

end CInt
end Foundation
end ToonVpu
