import Mathlib.Tactic.IntervalCases
import Mathlib.Tactic.Ring
import ToonVpu.Foundation.Logged
import ToonVpu.Lib.Semaphore

/-!
# QpMap — the quantizers for the deblocking filter

The BIT processor reports the quantizer of each macroblock in the parameter buffer, two to a word
and 64 to a row.  `vpu_DecGetOutputInfo` packs them four to a word in front of that buffer,
`vpu_stream` clears what lies behind, and the PP reads them with a stride of its own.  The library
counts whole macroblocks in a row and the PP also counts the last one that is cut off.
-/

namespace ToonVpu
namespace Stream

open Foundation
open Foundation.Logged
open Lib

/-! ## The library -/

/-- The bytes of `para_buf`, from its start. -/
abbrev QpMem : Type := ℕ → UInt8

/-- A computation that logs where it writes and how much. -/
abbrev QpProg (α : Type) := Logged (ℕ × ℕ) α

/-- `PARA_BUF2_SIZE`; the decoder's parameter buffer follows. -/
def paraBuf2Size : ℕ := 1728

/-- Byte `b` of a word in memory. -/
def wordByte (w : UInt32) (b : ℕ) : UInt8 := (w >>> UInt32.ofNat (8 * b)).toUInt8

/-- Two words of the report in one. -/
def repackWord (val1 val2 : UInt32) : UInt32 :=
  (val1 <<< 8 &&& (0xff000000 : UInt32)) ||| val1 <<< 16 ||| val2 >>> 8 |||
    (val2 &&& (0x000000ff : UInt32))

/-- `(x + 3) & ~3`. -/
def align4 (x : ℕ) : ℕ := (x + 3) / 4 * 4

/-- The stride with which the PP reads. -/
def ppStride (picWidth : ℕ) : ℕ := align4 ((picWidth + 15) / 16)

/-- The rows that the PP reads. -/
def ppRows (picHeight : ℕ) : ℕ := (picHeight + 15) / 16

/-- A report with one quantizer in each half of a word. -/
def reportOf (qp : ℕ → ℕ → UInt8) (w : ℕ) : UInt32 :=
  (qp (w / 32) (2 * (w % 32))).toUInt32 <<< 16 ||| (qp (w / 32) (2 * (w % 32) + 1)).toUInt32

/-- The word for the macroblocks `4 * k` to `4 * k + 3` of row `r`. -/
def rowWord (report : ℕ → UInt32) (r k : ℕ) : UInt32 :=
  repackWord (report (r * 32 + 2 * k)) (report (r * 32 + 2 * k + 1))

/-- The first macroblock of four is in the last byte. -/
theorem wordByte_repackWord (a b c d : UInt8) :
    let w := repackWord (a.toUInt32 <<< 16 ||| b.toUInt32) (c.toUInt32 <<< 16 ||| d.toUInt32)
    wordByte w 3 = a ∧ wordByte w 2 = b ∧ wordByte w 1 = c ∧ wordByte w 0 = d := by
  unfold repackWord wordByte
  refine ⟨?_, ?_, ?_, ?_⟩ <;> (rw [← UInt8.toBitVec_inj]; ext i hi; interval_cases i <;> simp)

/-- The word for a macroblock has its quantizer. -/
theorem wordByte_rowWord (qp : ℕ → ℕ → UInt8) (r col : ℕ) (hcol : col < 64) :
    wordByte (rowWord (reportOf qp) r (col / 4)) (3 - col % 4) = qp r col := by
  have hword : ∀ w, w < 32 → reportOf qp (r * 32 + w) =
      (qp r (2 * w)).toUInt32 <<< 16 ||| (qp r (2 * w + 1)).toUInt32 := by
    intro w hw
    have hrow : (r * 32 + w) / 32 = r := by omega
    have hplace : (r * 32 + w) % 32 = w := by omega
    rw [reportOf, hrow, hplace]
  have hbytes := wordByte_repackWord (qp r (2 * (2 * (col / 4)))) (qp r (2 * (2 * (col / 4)) + 1))
    (qp r (2 * (2 * (col / 4) + 1))) (qp r (2 * (2 * (col / 4) + 1) + 1))
  rw [rowWord, hword _ (by omega), Nat.add_assoc, hword _ (by omega)]
  obtain ⟨h3, h2, h1, h0⟩ := hbytes
  have hcases : col % 4 = 0 ∨ col % 4 = 1 ∨ col % 4 = 2 ∨ col % 4 = 3 := by omega
  rcases hcases with h | h | h | h
  · rw [h, h3]
    exact congrArg (qp r) (by omega)
  · rw [h, h2]
    exact congrArg (qp r) (by omega)
  · rw [h, h1]
    exact congrArg (qp r) (by omega)
  · rw [h, h0]
    exact congrArg (qp r) (by omega)

/-! ## What is written -/

/-- The write stays in front of the parameter buffer. -/
def InFront (e : ℕ × ℕ) : Prop := e.1 + e.2 ≤ paraBuf2Size

section Repack

variable {report : ℕ → UInt32} {mem : QpMem} {n widthInMB heightInMB : ℕ}

end Repack

/-! ## What the PP reads -/

/-- The quantizers of the whole macroblocks are where the PP looks for them, the rows below have
none, and nothing is written to the parameter buffer. -/
structure LaidOut (picWidth picHeight : ℕ) (report : ℕ → UInt32) (res : QpProg QpMem) : Prop where
  word : ∀ r < picHeight / 16, ∀ col < picWidth / 16, ∀ b < 4,
    res.value (r * ppStride picWidth + (4 * (col / 4) + b)) =
      wordByte (rowWord report r (col / 4)) b
  zero : ∀ r, picHeight / 16 ≤ r → r < ppRows picHeight → ∀ x < ppStride picWidth,
    res.value (r * ppStride picWidth + x) = 0
  inFront : ∀ e ∈ res.log, InFront e

/-- The quantizer of a macroblock lies in its row and in its word of four. -/
theorem LaidOut.quantizer {picWidth picHeight : ℕ} {qp : ℕ → ℕ → UInt8} {res : QpProg QpMem}
    (h : LaidOut picWidth picHeight (reportOf qp) res) (hwidth : picWidth ≤ 720) {r col : ℕ}
    (hr : r < picHeight / 16) (hcol : col < picWidth / 16) :
    res.value (r * ppStride picWidth + (4 * (col / 4) + (3 - col % 4))) = qp r col := by
  rw [h.word r hr col hcol (3 - col % 4) (by omega)]
  exact wordByte_rowWord qp r col (by omega)

section Picture

variable {picWidth picHeight : ℕ} {report : ℕ → UInt32} {mem : QpMem}

end Picture

end Stream
end ToonVpu
