import Mathlib.Data.Int.Notation
import Mathlib.Tactic.Common

/-!
# Machine — 32-bit results of exact arithmetic

The programs modelled here compute in 32-bit words.  Their expressions are written over `ℤ` and
reduced once at the end: `u32` is the value of an `unsigned` expression, `i32` the value a
two's-complement `int` takes.  In the ranges the programs are meant for, both are the identity.
-/

namespace ToonVpu
namespace Foundation

/-- The value of an unsigned 32-bit expression. -/
def u32 (x : ℤ) : ℕ := (x % 4294967296).toNat

/-- The value of a signed 32-bit expression, wrapping on overflow. -/
def i32 (x : ℤ) : ℤ := (x + 2147483648) % 4294967296 - 2147483648

theorem u32_eq {x : ℤ} {n : ℕ} (h : x = n) (hn : n < 4294967296) : u32 x = n := by
  unfold u32
  omega

theorem i32_eq {x : ℤ} (hl : -2147483648 ≤ x) (hu : x < 2147483648) : i32 x = x := by
  unfold i32
  omega

end Foundation
end ToonVpu
