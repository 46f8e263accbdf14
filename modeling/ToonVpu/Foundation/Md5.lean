import Mathlib.Algebra.Group.Nat.Defs
import ToonVpu.Foundation.BlockHash

/-!
# Md5 — the message digest of RFC 1321

The message is padded to whole blocks of 64 bytes, each block is sixteen words of 32 bits with the low
byte first, and a block is worked into four registers by four rounds of sixteen operations.  The
operations are written in rows of four, in which the registers change roles.
-/

namespace ToonVpu
namespace Foundation
namespace Md5

open BlockHash

/-! ## Words -/

/-- The four registers. -/
structure Regs where
  a : UInt32
  b : UInt32
  c : UInt32
  d : UInt32
  deriving DecidableEq, Repr

def Regs.initial : Regs := ⟨0x67452301, 0xefcdab89, 0x98badcfe, 0x10325476⟩

/-- A word shifted circularly to the left. -/
def rotateLeft (x : UInt32) (s : ℕ) : UInt32 := ⟨x.toBitVec.rotateLeft s⟩

/-- Word `i` of a block. -/
def word (block : List UInt8) (i : ℕ) : UInt32 :=
  UInt32.ofNat ((block.getD (4 * i) 0).toNat + (block.getD (4 * i + 1) 0).toNat * 256 +
    (block.getD (4 * i + 2) 0).toNat * 65536 + (block.getD (4 * i + 3) 0).toNat * 16777216)

/-- The `n` low bytes of a number, the lowest first. -/
def lowBytes (n x : ℕ) : List UInt8 := (List.range n).map fun i => UInt8.ofNat (x / 256 ^ i)

/-! ## Operations -/

inductive Fn
  | F
  | G
  | H
  | I
  deriving DecidableEq, Repr

def Fn.eval : Fn → UInt32 → UInt32 → UInt32 → UInt32
  | .F, x, y, z => x &&& y ||| ~~~x &&& z
  | .G, x, y, z => x &&& z ||| y &&& ~~~z
  | .H, x, y, z => x ^^^ y ^^^ z
  | .I, x, y, z => y ^^^ (x ||| ~~~z)

/-- `[abcd k s i]`, with the entry `i` of the table. -/
structure Op where
  fn : Fn
  k : ℕ
  s : ℕ
  t : UInt32
  deriving DecidableEq, Repr

/-- What an operation puts into the register that comes first. -/
def Op.apply (o : Op) (x : ℕ → UInt32) (a b c d : UInt32) : UInt32 :=
  b + rotateLeft (a + o.fn.eval b c d + x o.k + o.t) o.s

/-- Rows `[ABCD ..] [DABC ..] [CDAB ..] [BCDA ..]`. -/
def applyRows (x : ℕ → UInt32) : List Op → Regs → Regs
  | o₀ :: o₁ :: o₂ :: o₃ :: os, r =>
    let a := o₀.apply x r.a r.b r.c r.d
    let d := o₁.apply x r.d a r.b r.c
    let c := o₂.apply x r.c d a r.b
    let b := o₃.apply x r.b c d a
    applyRows x os ⟨a, b, c, d⟩
  | _, r => r

/-- The table of the integer parts of `4294967296 * abs(sin(i))`. -/
def table : List UInt32 :=
  [0xd76aa478, 0xe8c7b756, 0x242070db, 0xc1bdceee, 0xf57c0faf, 0x4787c62a, 0xa8304613, 0xfd469501,
    0x698098d8, 0x8b44f7af, 0xffff5bb1, 0x895cd7be, 0x6b901122, 0xfd987193, 0xa679438e, 0x49b40821,
    0xf61e2562, 0xc040b340, 0x265e5a51, 0xe9b6c7aa, 0xd62f105d, 0x02441453, 0xd8a1e681, 0xe7d3fbc8,
    0x21e1cde6, 0xc33707d6, 0xf4d50d87, 0x455a14ed, 0xa9e3e905, 0xfcefa3f8, 0x676f02d9, 0x8d2a4c8a,
    0xfffa3942, 0x8771f681, 0x6d9d6122, 0xfde5380c, 0xa4beea44, 0x4bdecfa9, 0xf6bb4b60, 0xbebfbc70,
    0x289b7ec6, 0xeaa127fa, 0xd4ef3085, 0x04881d05, 0xd9d4d039, 0xe6db99e5, 0x1fa27cf8, 0xc4ac5665,
    0xf4292244, 0x432aff97, 0xab9423a7, 0xfc93a039, 0x655b59c3, 0x8f0ccc92, 0xffeff47d, 0x85845dd1,
    0x6fa87e4f, 0xfe2ce6e0, 0xa3014314, 0x4e0811a1, 0xf7537e82, 0xbd3af235, 0x2ad7d2bb, 0xeb86d391]

/-- The words that a round takes, in its order, and its four shifts. -/
structure Round where
  fn : Fn
  words : List ℕ
  shifts : List ℕ

def rounds : List Round :=
  [⟨.F, [0, 1, 2, 3, 4, 5, 6, 7, 8, 9, 10, 11, 12, 13, 14, 15], [7, 12, 17, 22]⟩,
    ⟨.G, [1, 6, 11, 0, 5, 10, 15, 4, 9, 14, 3, 8, 13, 2, 7, 12], [5, 9, 14, 20]⟩,
    ⟨.H, [5, 8, 11, 14, 1, 4, 7, 10, 13, 0, 3, 6, 9, 12, 15, 2], [4, 11, 16, 23]⟩,
    ⟨.I, [0, 7, 14, 5, 12, 3, 10, 1, 8, 15, 6, 13, 4, 11, 2, 9], [6, 10, 15, 21]⟩]

def Round.ops (r : Round) (first : ℕ) : List Op :=
  (List.range 16).map fun i =>
    ⟨r.fn, r.words.getD i 0, r.shifts.getD (i % 4) 0, table.getD (first + i) 0⟩

/-- The 64 operations. -/
def ops : List Op := (rounds.zipIdx.map fun (r, n) => r.ops (16 * n)).flatten

/-- One block. -/
def compress (r : Regs) (block : List UInt8) : Regs :=
  let r' := applyRows (word block) ops r
  ⟨r.a + r'.a, r.b + r'.b, r.c + r'.c, r.d + r'.d⟩

/-! ## Digests -/

/-- A single `1` bit, zeros up to 8 bytes before the end of a block, and the length in bits. -/
def pad (message : List UInt8) : List UInt8 :=
  message ++ 0x80 :: List.replicate ((119 - message.length % 64) % 64) 0 ++
    lowBytes 8 (8 * message.length)

def Regs.bytes (r : Regs) : List UInt8 :=
  lowBytes 4 r.a.toNat ++ lowBytes 4 r.b.toNat ++ lowBytes 4 r.c.toNat ++ lowBytes 4 r.d.toNat

/-- The message digest. -/
def digest (message : List UInt8) : List UInt8 :=
  (absorb compress 64 Regs.initial (pad message)).bytes

/-- Two lower-case hexadecimal digits for each byte. -/
def hex (bytes : List UInt8) : List Char :=
  bytes.flatMap fun x => [Nat.digitChar (x.toNat / 16), Nat.digitChar (x.toNat % 16)]

example : digest [97, 98, 99] =
    [0x90, 0x01, 0x50, 0x98, 0x3c, 0xd2, 0x4f, 0xb0, 0xd6, 0x96, 0x3f, 0x7d, 0x28, 0xe1, 0x7f,
      0x72] := by
  decide +kernel

/-! ## Steps -/

/-- One operation on registers that are passed on in a circle, so that the one to change is always
the first. -/
def Op.step (x : ℕ → UInt32) (r : Regs) (o : Op) : Regs :=
  ⟨r.d, o.apply x r.a r.b r.c r.d, r.b, r.c⟩

/-- Four steps bring the registers back to their places. -/
theorem applyRows_eq_foldl (x : ℕ → UInt32) (os : List Op) (r : Regs) (h : 4 ∣ os.length) :
    applyRows x os r = os.foldl (Op.step x) r := by
  fun_induction applyRows x os r with
  | case1 o₀ o₁ o₂ o₃ os r a d c b ih =>
    have hrest : 4 ∣ os.length := (Nat.dvd_add_left (Nat.dvd_refl 4)).mp h
    rw [ih hrest]
    rfl
  | case2 os r hrow =>
    match os, h with
    | [], _ => rfl
    | [_], h => exact absurd (show 4 ∣ 1 from h) (by decide)
    | [_, _], h => exact absurd (show 4 ∣ 2 from h) (by decide)
    | [_, _, _], h => exact absurd (show 4 ∣ 3 from h) (by decide)
    | o₀ :: o₁ :: o₂ :: o₃ :: os, _ => exact absurd rfl (hrow o₀ o₁ o₂ o₃ os)

end Md5
end Foundation
end ToonVpu
