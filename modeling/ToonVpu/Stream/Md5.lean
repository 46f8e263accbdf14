import Mathlib.Data.List.GetD
import ToonVpu.Foundation.Circular
import ToonVpu.Foundation.Md5

/-!
# Md5 — the digest of `apps/vpu_stream.c`

`md5_update` is given a message in pieces; `md5_final` feeds the padding through it.  The context is
compared with the digest of RFC 1321 through the blocks that it has worked in and the bytes that it
still holds.
-/

namespace ToonVpu
namespace Stream

open Foundation
open Foundation.BlockHash
open Foundation.Circular
open Foundation.Md5 (Regs Op)

/-! ## The context -/

/-- `struct md5_ctx`. -/
structure Md5Ctx where
  a : UInt32
  b : UInt32
  c : UInt32
  d : UInt32
  bytes : UInt64
  buf : ℕ → UInt8

/-- The bytes of an object, which are fewer than 2^31 on the target; their number is an `int`. -/
abbrev Bytes : Type := { xs : List UInt8 // xs.length < 2147483648 }

/-- `md5_rol`. -/
def md5Rol (v : UInt32) (s : ℕ) : UInt32 := v <<< UInt32.ofNat s ||| v >>> UInt32.ofNat (32 - s)

/-- `k` of `md5_block`. -/
def md5K : List UInt32 :=
  [0xd76aa478, 0xe8c7b756, 0x242070db, 0xc1bdceee,
    0xf57c0faf, 0x4787c62a, 0xa8304613, 0xfd469501,
    0x698098d8, 0x8b44f7af, 0xffff5bb1, 0x895cd7be,
    0x6b901122, 0xfd987193, 0xa679438e, 0x49b40821,
    0xf61e2562, 0xc040b340, 0x265e5a51, 0xe9b6c7aa,
    0xd62f105d, 0x02441453, 0xd8a1e681, 0xe7d3fbc8,
    0x21e1cde6, 0xc33707d6, 0xf4d50d87, 0x455a14ed,
    0xa9e3e905, 0xfcefa3f8, 0x676f02d9, 0x8d2a4c8a,
    0xfffa3942, 0x8771f681, 0x6d9d6122, 0xfde5380c,
    0xa4beea44, 0x4bdecfa9, 0xf6bb4b60, 0xbebfbc70,
    0x289b7ec6, 0xeaa127fa, 0xd4ef3085, 0x04881d05,
    0xd9d4d039, 0xe6db99e5, 0x1fa27cf8, 0xc4ac5665,
    0xf4292244, 0x432aff97, 0xab9423a7, 0xfc93a039,
    0x655b59c3, 0x8f0ccc92, 0xffeff47d, 0x85845dd1,
    0x6fa87e4f, 0xfe2ce6e0, 0xa3014314, 0x4e0811a1,
    0xf7537e82, 0xbd3af235, 0x2ad7d2bb, 0xeb86d391]

/-- `s` of `md5_block`. -/
def md5S : List ℕ :=
  [7, 12, 17, 22, 7, 12, 17, 22, 7, 12, 17, 22, 7, 12, 17, 22,
    5, 9, 14, 20, 5, 9, 14, 20, 5, 9, 14, 20, 5, 9, 14, 20,
    4, 11, 16, 23, 4, 11, 16, 23, 4, 11, 16, 23, 4, 11, 16, 23,
    6, 10, 15, 21, 6, 10, 15, 21, 6, 10, 15, 21, 6, 10, 15, 21]

/-- `x[i]` of `md5_block`. -/
def md5Word (p : List UInt8) (i : ℕ) : UInt32 :=
  (p.getD (i * 4) 0).toUInt32 ||| (p.getD (i * 4 + 1) 0).toUInt32 <<< 8 |||
    (p.getD (i * 4 + 2) 0).toUInt32 <<< 16 ||| (p.getD (i * 4 + 3) 0).toUInt32 <<< 24

/-- `f` and `g` of round `i`. -/
def md5Mix (i : ℕ) (b c d : UInt32) : UInt32 × ℕ :=
  if i < 16 then
    (b &&& c ||| ~~~b &&& d, i)
  else if i < 32 then
    (d &&& b ||| ~~~d &&& c, (5 * i + 1) &&& 15)
  else if i < 48 then
    (b ^^^ c ^^^ d, (3 * i + 5) &&& 15)
  else
    (c ^^^ (b ||| ~~~d), (7 * i) &&& 15)

/-- One round of the loop of `md5_block`. -/
def md5Step (x : ℕ → UInt32) (r : Regs) (i : ℕ) : Regs :=
  let (f, g) := md5Mix i r.b r.c r.d
  ⟨r.d, r.b + md5Rol (r.a + f + md5K.getD i 0 + x g) (md5S.getD i 0), r.b, r.c⟩

/-- `md5_block` on the 64 bytes at `p`. -/
def md5Block (ctx : Md5Ctx) (p : List UInt8) : Md5Ctx :=
  let r := (List.range 64).foldl (md5Step (md5Word p)) ⟨ctx.a, ctx.b, ctx.c, ctx.d⟩
  { ctx with a := ctx.a + r.a, b := ctx.b + r.b, c := ctx.c + r.c, d := ctx.d + r.d }

/-- `md5_init`; the buffer keeps what was in it. -/
def md5Init (ctx : Md5Ctx) : Md5Ctx :=
  { ctx with a := 0x67452301, b := 0xefcdab89, c := 0x98badcfe, d := 0x10325476, bytes := 0 }

/-- The first `n` bytes of a buffer. -/
def bufBytes (buf : ℕ → UInt8) (n : ℕ) : List UInt8 := (List.range n).map buf

/-- The loop over the blocks of a piece, and what is left of the piece. -/
def md5UpdateLoop : ℕ → Md5Ctx → List UInt8 → Md5Ctx × List UInt8
  | 0, ctx, p => (ctx, p)
  | fuel + 1, ctx, p =>
    if 64 ≤ p.length then
      md5UpdateLoop fuel (md5Block ctx (p.take 64)) (p.drop 64)
    else
      (ctx, p)

/-- `md5_update` behind the bytes that complete a block. -/
def md5UpdateRest (ctx : Md5Ctx) (p : List UInt8) : Md5Ctx :=
  let (ctx, p) := md5UpdateLoop p.length ctx p
  if 0 < p.length then { ctx with buf := blit ctx.buf 0 p } else ctx

/-- `md5_update`. -/
def md5Update (ctx : Md5Ctx) (data : Bytes) : Md5Ctx :=
  let p := data.val
  let used := (ctx.bytes &&& 63).toNat
  let ctx := { ctx with bytes := ctx.bytes + UInt64.ofNat p.length }
  if used ≠ 0 then
    let n := min (64 - used) p.length
    let ctx := { ctx with buf := blit ctx.buf used (p.take n) }
    let used := used + n
    md5UpdateRest (if used = 64 then md5Block ctx (bufBytes ctx.buf 64) else ctx) (p.drop n)
  else
    md5UpdateRest ctx p

/-- The four bytes of a register. -/
def md5Out (v : UInt32) : List UInt8 :=
  [(v &&& 0xff).toUInt8, ((v >>> 8) &&& 0xff).toUInt8, ((v >>> 16) &&& 0xff).toUInt8,
    ((v >>> 24) &&& 0xff).toUInt8]

/-- The first `n` bytes of `pad`. -/
def md5Pad (n : ℕ) : Bytes :=
  ⟨((0x80 : UInt8) :: List.replicate 63 0).take n,
    Nat.lt_of_le_of_lt (List.length_take_le' _ _) (by simp)⟩

/-- `bits` of `md5_final`. -/
def md5Bits (bitLen : UInt64) : Bytes :=
  ⟨(List.range 8).map fun i => (bitLen >>> UInt64.ofNat (8 * i)).toUInt8, by simp⟩

/-- `md5_final`. -/
def md5Final (ctx : Md5Ctx) : List UInt8 :=
  let used := (ctx.bytes &&& 63).toNat
  let padLen := if used < 56 then 56 - used else 120 - used
  let bits := md5Bits (ctx.bytes * 8)
  let ctx := md5Update (md5Update ctx (md5Pad padLen)) bits
  md5Out ctx.a ++ md5Out ctx.b ++ md5Out ctx.c ++ md5Out ctx.d

/-- `hex` of `md5_hex`. -/
def hexTable : List UInt8 := "0123456789abcdef".toList.map Char.toUInt8

/-- A string without its terminator. -/
abbrev CString : Type := { s : Bytes // (0 : UInt8) ∉ s.val }

/-- `md5_hex`: the digits and a terminator; `ctx` is the context on its stack. -/
def md5Hex (ctx : Md5Ctx) (s : CString) : List UInt8 :=
  let sum := md5Final (md5Update (md5Init ctx) s.val)
  let digits := sum.flatMap fun x : UInt8 =>
    [hexTable.getD (x >>> 4).toNat 0, hexTable.getD (x &&& 15).toNat 0]
  digits ++ [0]

/-! ## The compression function -/

theorem md5Rol_eq {v : UInt32} {s : ℕ} (hpos : 0 < s) (hlt : s < 32) :
    md5Rol v s = Md5.rotateLeft v s := by
  apply UInt32.toBitVec_inj.mp
  have hs : (UInt32.ofNat s).toBitVec % 32 = BitVec.ofNat 32 s := by
    apply BitVec.eq_of_toNat_eq
    simp [BitVec.toNat_umod]
    omega
  have hs' : (UInt32.ofNat (32 - s)).toBitVec % 32 = BitVec.ofNat 32 (32 - s) := by
    apply BitVec.eq_of_toNat_eq
    simp [BitVec.toNat_umod]
    omega
  unfold md5Rol Md5.rotateLeft
  rw [UInt32.toBitVec_or, UInt32.toBitVec_shiftLeft, UInt32.toBitVec_shiftRight, hs, hs']
  simp only [BitVec.shiftLeft_eq', BitVec.ushiftRight_eq', BitVec.toNat_ofNat, BitVec.rotateLeft,
    BitVec.rotateLeftAux]
  rw [Nat.mod_eq_of_lt (by omega), Nat.mod_eq_of_lt (by omega), Nat.mod_eq_of_lt hlt]

/-- Four bytes in their places do not touch. -/
theorem or_bytes {w x y : ℕ} (z : ℕ) (hw : w < 256) (hx : x < 256) (hy : y < 256) :
    w ||| x * 256 ||| y * 65536 ||| z * 16777216 = w + x * 256 + y * 65536 + z * 16777216 := by
  have hlow : w ||| x * 256 = w + x * 256 := by
    rw [Nat.or_comm, Nat.mul_comm, Nat.add_comm]
    exact (Nat.two_pow_add_eq_or_of_lt (i := 8) hw x).symm
  have hmiddle : w + x * 256 ||| y * 65536 = w + x * 256 + y * 65536 := by
    rw [Nat.or_comm, Nat.mul_comm y, Nat.add_comm _ (65536 * y)]
    exact (Nat.two_pow_add_eq_or_of_lt (i := 16) (by omega) y).symm
  rw [hlow, hmiddle, Nat.or_comm, Nat.mul_comm z, Nat.add_comm _ (16777216 * z)]
  exact (Nat.two_pow_add_eq_or_of_lt (i := 24) (by omega) z).symm

theorem md5Word_eq (p : List UInt8) : md5Word p = Md5.word p := by
  funext i
  have hshift : ∀ (x : UInt8) (n : ℕ), n ≤ 24 →
      (x.toUInt32 <<< UInt32.ofNat n).toNat = x.toNat * 2 ^ n := by
    intro x n hn
    have hx := x.toNat_lt
    have hpow : 2 ^ n ≤ 2 ^ 24 := Nat.pow_le_pow_right (by decide) hn
    have hprod : x.toNat * 2 ^ n ≤ 255 * 2 ^ 24 := Nat.mul_le_mul (by omega) hpow
    have hn32 : (UInt32.ofNat n).toNat % 32 = n := by
      rw [UInt32.toNat_ofNat', Nat.mod_eq_of_lt (by omega), Nat.mod_eq_of_lt (by omega)]
    rw [UInt32.toNat_shiftLeft, hn32, Nat.shiftLeft_eq, UInt8.toNat_toUInt32,
      Nat.mod_eq_of_lt (by omega)]
  have h0 := (p.getD (i * 4) 0).toNat_lt
  have h1 := (p.getD (i * 4 + 1) 0).toNat_lt
  have h2 := (p.getD (i * 4 + 2) 0).toNat_lt
  have h3 := (p.getD (i * 4 + 3) 0).toNat_lt
  apply UInt32.toNat_inj.mp
  unfold md5Word Md5.word
  rw [UInt32.toNat_or, UInt32.toNat_or, UInt32.toNat_or, UInt8.toNat_toUInt32]
  rw [show (8 : UInt32) = UInt32.ofNat 8 from rfl, show (16 : UInt32) = UInt32.ofNat 16 from rfl,
    show (24 : UInt32) = UInt32.ofNat 24 from rfl, hshift _ 8 (by decide), hshift _ 16 (by decide),
    hshift _ 24 (by decide), UInt32.toNat_ofNat', Nat.mul_comm 4 i]
  rw [Nat.mod_eq_of_lt (by omega)]
  exact or_bytes _ (by omega) (by omega) (by omega)

/-- Round `i` as an operation of the standard. -/
def md5Op (i : ℕ) : Op :=
  let fn : Md5.Fn := if i < 16 then .F else if i < 32 then .G else if i < 48 then .H else .I
  ⟨fn, (md5Mix i 0 0 0).2, md5S.getD i 0, md5K.getD i 0⟩

theorem ops_eq : Md5.ops = (List.range 64).map md5Op := by
  decide +kernel

theorem md5S_range : ∀ i < 64, 0 < md5S.getD i 0 ∧ md5S.getD i 0 < 32 := by
  decide

theorem md5Mix_eq (i : ℕ) (b c d : UInt32) :
    md5Mix i b c d = ((md5Op i).fn.eval b c d, (md5Op i).k) := by
  unfold md5Op md5Mix
  simp only
  split_ifs
  · rfl
  · simp only [Md5.Fn.eval, UInt32.and_comm]
  · rfl
  · rfl

theorem md5Step_eq (x : ℕ → UInt32) (r : Regs) {i : ℕ} (hi : i < 64) :
    md5Step x r i = Op.step x r (md5Op i) := by
  obtain ⟨hpos, hlt⟩ := md5S_range i hi
  unfold md5Step Op.step Op.apply
  rw [md5Mix_eq]
  simp only
  rw [md5Rol_eq hpos hlt, UInt32.add_assoc _ (md5K.getD i 0), UInt32.add_comm (md5K.getD i 0),
    ← UInt32.add_assoc]
  rfl

/-- **One block.** -/
theorem md5Block_eq (ctx : Md5Ctx) (p : List UInt8) :
    md5Block ctx p =
      let r := Md5.compress ⟨ctx.a, ctx.b, ctx.c, ctx.d⟩ p
      { ctx with a := r.a, b := r.b, c := r.c, d := r.d } := by
  have hloop : ∀ r : Regs, (List.range 64).foldl (md5Step (md5Word p)) r =
      Md5.applyRows (Md5.word p) Md5.ops r := by
    intro r
    calc (List.range 64).foldl (md5Step (md5Word p)) r
        = (List.range 64).foldl (fun r i => Op.step (Md5.word p) r (md5Op i)) r := by
          rw [md5Word_eq]
          exact List.foldl_ext _ _ r fun r i hi => md5Step_eq _ r (List.mem_range.mp hi)
      _ = ((List.range 64).map md5Op).foldl (Op.step (Md5.word p)) r := by rw [List.foldl_map]
      _ = Md5.applyRows (Md5.word p) Md5.ops r := by
          rw [← ops_eq, Md5.applyRows_eq_foldl]
          rw [ops_eq, List.length_map, List.length_range]
          decide
  unfold md5Block Md5.compress
  rw [hloop]

/-! ## Pieces -/

/-- The context after a message: its whole blocks are worked in, and the buffer begins with the rest. -/
structure Md5Ctx.After (ctx : Md5Ctx) (msg : List UInt8) : Prop where
  regs : (⟨ctx.a, ctx.b, ctx.c, ctx.d⟩ : Regs) = absorb Md5.compress 64 Regs.initial msg
  bytes : ctx.bytes = UInt64.ofNat msg.length
  buf : bufBytes ctx.buf (msg.length % 64) = remainder 64 msg

section Pieces

variable {ctx : Md5Ctx} {msg p : List UInt8}

theorem md5Init_after (ctx : Md5Ctx) : (md5Init ctx).After [] := ⟨rfl, rfl, rfl⟩

theorem bufBytes_length (buf : ℕ → UInt8) (n : ℕ) : (bufBytes buf n).length = n := by
  rw [bufBytes, List.length_map, List.length_range]

theorem bufBytes_blit (buf : ℕ → UInt8) (n : ℕ) (xs : List UInt8) :
    bufBytes (blit buf n xs) (n + xs.length) = bufBytes buf n ++ xs := by
  apply List.ext_getElem
  · rw [List.length_append, bufBytes_length, bufBytes_length]
  · intro i hi _
    rw [bufBytes_length] at hi
    simp only [bufBytes, List.getElem_map, List.getElem_range, blit, List.getElem_append,
      List.length_map, List.length_range]
    by_cases hlow : i < n
    · rw [dif_pos hlow, if_neg (Nat.not_le.mpr hlow)]
    · have hin : i - n < xs.length := by omega
      rw [dif_neg hlow, if_pos (Nat.not_lt.mp hlow), List.getD_eq_getElem _ _ hin]

/-- The loop works in the whole blocks of a piece and leaves its remainder. -/
theorem md5UpdateLoop_spec (fuel : ℕ) (ctx : Md5Ctx) (p : List UInt8) (hfuel : p.length ≤ fuel) :
    md5UpdateLoop fuel ctx p =
      let r := absorb Md5.compress 64 ⟨ctx.a, ctx.b, ctx.c, ctx.d⟩ p
      ({ ctx with a := r.a, b := r.b, c := r.c, d := r.d }, remainder 64 p) := by
  have hshort : ∀ (ctx : Md5Ctx) (p : List UInt8), p.length < 64 →
      (ctx, p) = (let r := absorb Md5.compress 64 ⟨ctx.a, ctx.b, ctx.c, ctx.d⟩ p
        ({ ctx with a := r.a, b := r.b, c := r.c, d := r.d }, remainder 64 p)) := by
    intro ctx p hlt
    rw [absorb_of_lt hlt, remainder_of_lt hlt]
  induction fuel generalizing ctx p with
  | zero => exact hshort ctx p (by omega)
  | succ fuel ih =>
    unfold md5UpdateLoop
    split
    · rename_i hblock
      rw [ih _ _ (by rw [List.length_drop]; omega), absorb_block (by decide) hblock,
        remainder_block (by decide) hblock, md5Block_eq]
    · rename_i hblock
      exact hshort ctx p (Nat.not_le.mp hblock)

/-- A piece behind whole blocks. -/
theorem md5UpdateRest_after (hregs : (⟨ctx.a, ctx.b, ctx.c, ctx.d⟩ : Regs) =
      absorb Md5.compress 64 Regs.initial msg) (hwhole : remainder 64 msg = [])
    (hbytes : ctx.bytes = UInt64.ofNat (msg ++ p).length) :
    (md5UpdateRest ctx p).After (msg ++ p) := by
  have habsorb := absorb_append (f := Md5.compress) (by decide : 0 < 64) Regs.initial msg p
  have hremainder := remainder_append (by decide : 0 < 64) msg p
  rw [hwhole, List.nil_append] at habsorb hremainder
  have hlen := remainder_length 64 (msg ++ p)
  unfold md5UpdateRest
  rw [md5UpdateLoop_spec _ ctx p (Nat.le_refl _), ← hremainder, hregs, ← habsorb]
  simp only
  split
  · refine ⟨rfl, hbytes, ?_⟩
    have hblit := bufBytes_blit ctx.buf 0 (remainder 64 (msg ++ p))
    rw [Nat.zero_add, hlen] at hblit
    exact hblit
  · rename_i hempty
    refine ⟨rfl, hbytes, ?_⟩
    rw [List.eq_nil_of_length_eq_zero (Nat.le_zero.mp (Nat.not_lt.mp hempty)), ← hlen,
      Nat.le_zero.mp (Nat.not_lt.mp hempty)]
    rfl

theorem and_63 (n : ℕ) : (UInt64.ofNat n &&& 63).toNat = n % 64 := by
  have hmask : (63 : UInt64).toNat = 2 ^ 6 - 1 := rfl
  rw [UInt64.toNat_and, hmask, Nat.and_two_pow_sub_one_eq_mod, UInt64.toNat_ofNat']
  exact Nat.mod_mod_of_dvd n (by decide)

/-- **One piece.** -/
theorem md5Update_after (h : ctx.After msg) (data : Bytes) :
    (md5Update ctx data).After (msg ++ data.val) := by
  obtain ⟨hregs, hbytes, hbuf⟩ := h
  obtain ⟨p, hp⟩ := data
  have hused : (ctx.bytes &&& 63).toNat = msg.length % 64 := by rw [hbytes, and_63]
  have hlen := remainder_length 64 msg
  have hadd : ctx.bytes + UInt64.ofNat p.length = UInt64.ofNat (msg ++ p).length := by
    rw [hbytes, List.length_append, UInt64.ofNat_add]
  have hlt : msg.length % 64 < 64 := Nat.mod_lt _ (by decide)
  unfold md5Update
  simp only [hused]
  generalize hmod : msg.length % 64 = used at hbuf hlen hlt
  by_cases hzero : used = 0
  · -- The message so far is whole blocks.
    rw [if_neg (not_not.mpr hzero)]
    rw [hzero] at hlen
    exact md5UpdateRest_after hregs (List.eq_nil_of_length_eq_zero hlen) hadd
  · rw [if_pos hzero]
    have hblit : bufBytes (blit ctx.buf used (p.take (min (64 - used) p.length)))
        (used + min (64 - used) p.length) = remainder 64 msg ++ p.take (min (64 - used) p.length) := by
      have h := bufBytes_blit ctx.buf used (p.take (min (64 - used) p.length))
      rw [List.length_take, Nat.min_eq_left (Nat.min_le_right _ _), hbuf] at h
      exact h
    rcases Nat.lt_or_ge p.length (64 - used) with hshort | hfill
    · -- The block stays incomplete.
      rw [Nat.min_eq_right (Nat.le_of_lt hshort), List.take_length] at hblit ⊢
      rw [if_neg (by omega), List.drop_length]
      have htail : (remainder 64 msg ++ p).length < 64 := by
        rw [List.length_append, hlen]
        omega
      refine ⟨?_, hadd, ?_⟩
      · rw [absorb_append (by decide), absorb_of_lt htail]
        exact hregs
      · have hsum := remainder_length 64 (msg ++ p)
        rw [remainder_append (by decide), remainder_of_lt htail] at hsum ⊢
        rw [← hsum, List.length_append, hlen]
        exact hblit
    · -- The block is completed first.
      rw [Nat.min_eq_left hfill, Nat.add_sub_cancel' (Nat.le_of_lt hlt)] at hblit ⊢
      have hwhole : (msg ++ p.take (64 - used)).length % 64 = 0 := by
        rw [List.length_append, List.length_take, Nat.min_eq_left hfill]
        omega
      have hblock : (remainder 64 msg ++ p.take (64 - used)).length = 64 := by
        rw [List.length_append, List.length_take, Nat.min_eq_left hfill, hlen]
        omega
      have hsplit : msg ++ p = msg ++ p.take (64 - used) ++ p.drop (64 - used) := by
        rw [List.append_assoc, List.take_append_drop]
      rw [if_pos rfl, hblit, md5Block_eq, hsplit]
      refine md5UpdateRest_after ?_ ?_ ?_
      · rw [absorb_append (by decide), absorb_block (by decide) (Nat.le_of_eq hblock.symm),
          List.take_of_length_le (Nat.le_of_eq hblock), List.drop_of_length_le (Nat.le_of_eq hblock),
          absorb_of_lt (by decide), ← hregs]
      · exact List.eq_nil_of_length_eq_zero ((remainder_length 64 _).trans hwhole)
      · rw [← hsplit]
        exact hadd

/-- All pieces. -/
theorem md5Updates_after (h : ctx.After msg) (pieces : List Bytes) :
    (pieces.foldl md5Update ctx).After (msg ++ (pieces.map Subtype.val).flatten) := by
  induction pieces generalizing ctx msg with
  | nil =>
    rw [List.map_nil, List.flatten_nil, List.append_nil]
    exact h
  | cons data pieces ih =>
    rw [List.foldl_cons, List.map_cons, List.flatten_cons, ← List.append_assoc]
    exact ih (md5Update_after h data)

/-! ## The end -/

/-- The padding that `md5_final` feeds, for a message of `n` bytes. -/
theorem md5Pad_eq (n : ℕ) :
    (md5Pad (if n % 64 < 56 then 56 - n % 64 else 120 - n % 64)).val =
      0x80 :: List.replicate ((119 - n % 64) % 64) 0 := by
  have hlt : n % 64 < 64 := Nat.mod_lt _ (by decide)
  generalize n % 64 = used at hlt
  have htake : ∀ k, k ≤ 63 → (md5Pad (k + 1)).val = 0x80 :: List.replicate k 0 := by
    intro k hk
    show ((0x80 : UInt8) :: List.replicate 63 0).take (k + 1) = _
    rw [List.take_succ_cons, List.take_replicate, Nat.min_eq_left hk]
  split
  · have hpad : 56 - used = (119 - used) % 64 + 1 := by omega
    rw [hpad, htake _ (by omega)]
  · have hpad : 120 - used = (119 - used) % 64 + 1 := by omega
    rw [hpad, htake _ (by omega)]

theorem md5Bits_eq (n : ℕ) :
    (md5Bits (UInt64.ofNat n * 8)).val = Md5.lowBytes 8 (8 * n) := by
  unfold md5Bits Md5.lowBytes
  apply List.map_congr_left
  intro i hi
  have hi8 := List.mem_range.mp hi
  have hshift : (UInt64.ofNat (8 * i)).toNat % 64 = 8 * i := by
    rw [UInt64.toNat_ofNat', Nat.mod_eq_of_lt (by omega), Nat.mod_eq_of_lt (by omega)]
  have hbits : (UInt64.ofNat n * 8).toNat = 8 * n % 2 ^ 64 := by
    rw [UInt64.toNat_mul, UInt64.toNat_ofNat']
    show n % 2 ^ 64 * 8 % 2 ^ 64 = _
    omega
  have hpow : (2 : ℕ) ^ 64 = 2 ^ (8 * i) * 2 ^ (64 - 8 * i) := by
    rw [← Nat.pow_add]
    congr 1
    omega
  have hbase : (256 : ℕ) ^ i = 2 ^ (8 * i) := by
    rw [Nat.pow_mul]
  apply UInt8.toNat_inj.mp
  rw [UInt64.toNat_toUInt8, UInt64.toNat_shiftRight, hshift, hbits, UInt8.toNat_ofNat',
    Nat.shiftRight_eq_div_pow, hpow, Nat.mod_mul_right_div_self, hbase]
  exact Nat.mod_mod_of_dvd _ (Nat.pow_dvd_pow 2 (by omega))

theorem md5Out_eq (v : UInt32) : md5Out v = Md5.lowBytes 4 v.toNat := by
  have hbyte : ∀ i < 4, ((v >>> UInt32.ofNat (8 * i)) &&& 0xff).toUInt8 =
      UInt8.ofNat (v.toNat / 256 ^ i) := by
    intro i hi
    have hshift : (UInt32.ofNat (8 * i)).toNat % 32 = 8 * i := by
      rw [UInt32.toNat_ofNat', Nat.mod_eq_of_lt (by omega), Nat.mod_eq_of_lt (by omega)]
    have hmask : (0xff : UInt32).toNat = 2 ^ 8 - 1 := rfl
    have hbase : (256 : ℕ) ^ i = 2 ^ (8 * i) := by
      rw [Nat.pow_mul]
    apply UInt8.toNat_inj.mp
    rw [UInt32.toNat_toUInt8, UInt32.toNat_and, hmask, Nat.and_two_pow_sub_one_eq_mod,
      UInt32.toNat_shiftRight, hshift, UInt8.toNat_ofNat', Nat.shiftRight_eq_div_pow, hbase,
      Nat.mod_mod]
  have hzero : v >>> UInt32.ofNat (8 * 0) = v := by
    apply UInt32.toNat_inj.mp
    rw [UInt32.toNat_shiftRight]
    rfl
  calc md5Out v = (List.range 4).map fun i => ((v >>> UInt32.ofNat (8 * i)) &&& 0xff).toUInt8 := by
        show _ = [((v >>> UInt32.ofNat (8 * 0)) &&& 0xff).toUInt8, _, _, _]
        rw [hzero]
        rfl
    _ = Md5.lowBytes 4 v.toNat :=
        List.map_congr_left fun i hi => hbyte i (List.mem_range.mp hi)

/-- The digest of what went in. -/
theorem md5Final_eq (h : ctx.After msg) : md5Final ctx = Md5.digest msg := by
  have hpadded := md5Update_after (md5Update_after h (md5Pad (if msg.length % 64 < 56 then
    56 - msg.length % 64 else 120 - msg.length % 64))) (md5Bits (UInt64.ofNat msg.length * 8))
  rw [md5Pad_eq, md5Bits_eq] at hpadded
  have hregs := hpadded.regs
  unfold md5Final Md5.digest Md5.pad
  rw [← hregs, h.bytes, and_63]
  simp only [md5Out_eq, Md5.Regs.bytes]

theorem hexTable_eq : ∀ n < 16, hexTable.getD n 0 = (Nat.digitChar n).toUInt8 := by
  decide +kernel

end Pieces

/-- **The streaming digest is MD5.** However a message is cut into pieces, the digest is that of the
whole message; `md5_hex` writes the digits of the digest of a string. -/
theorem md5_is_rfc1321 (ctx : Md5Ctx) :
    (∀ pieces : List Bytes, md5Final (pieces.foldl md5Update (md5Init ctx)) =
      Md5.digest (pieces.map Subtype.val).flatten) ∧
    ∀ s : CString, md5Hex ctx s =
      (Md5.hex (Md5.digest s.val.val)).map Char.toUInt8 ++ [0] := by
  constructor
  · intro pieces
    have hafter := md5Updates_after (md5Init_after ctx) pieces
    rw [List.nil_append] at hafter
    exact md5Final_eq hafter
  · intro s
    have hafter := md5Update_after (md5Init_after ctx) s.val
    rw [List.nil_append] at hafter
    have hdigits : ∀ x : UInt8, [hexTable.getD (x >>> 4).toNat 0, hexTable.getD (x &&& 15).toNat 0] =
        [Nat.digitChar (x.toNat / 16), Nat.digitChar (x.toNat % 16)].map Char.toUInt8 := by
      intro x
      have hx := x.toNat_lt
      have hhigh : (x >>> 4).toNat = x.toNat / 16 := by
        rw [UInt8.toNat_shiftRight, Nat.shiftRight_eq_div_pow]
        rfl
      have hlow : (x &&& 15).toNat = x.toNat % 16 := by
        rw [UInt8.toNat_and]
        exact Nat.and_two_pow_sub_one_eq_mod _ 4
      rw [hhigh, hlow, hexTable_eq _ (by omega), hexTable_eq _ (Nat.mod_lt _ (by decide))]
      rfl
    unfold md5Hex Md5.hex
    rw [md5Final_eq hafter, List.map_flatMap]
    simp only [hdigits]

end Stream
end ToonVpu
