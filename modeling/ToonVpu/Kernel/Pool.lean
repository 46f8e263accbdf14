import Mathlib.Data.List.Basic
import Mathlib.Data.Set.Basic
import ToonVpu.Foundation.Machine
import ToonVpu.Foundation.Ownership

/-!
# Pool — the reserved DMA pool (`kernel/mxc_vpu.c`)

The driver reserves up to three blocks of 4 MB when it is loaded and serves every buffer from them.
Each block has a bitmap with one bit for each page, searched first fit.  A buffer never crosses the
end of a block.

`vpu_pool_free` believes the address and the length it is given: the bits past the end of a bitmap
that it clears belong to other memory.  They are not modelled; `stray` lists them.
-/

namespace ToonVpu
namespace Kernel

open Foundation
open Foundation.Ownership

/-! ## Layout -/

/-- `PAGE_SIZE`. -/
def pageSize : ℕ := 4096

/-- `VPU_POOL_BLOCK_PAGES`. -/
def poolBlockPages : ℕ := 1024

/-- `VPU_POOL_BLOCK_SIZE`. -/
def poolBlockSize : ℕ := 4194304

/-- The blocks that `vpu_pool_init` got from the page allocator: at most three, page aligned, apart
from each other, and below the end of the 32-bit address space. -/
structure PoolLayout where
  nblocks : ℕ
  phys : ℕ → ℕ
  nblocks_le : nblocks ≤ 3
  aligned : ∀ i < nblocks, phys i % pageSize = 0
  pos : ∀ i < nblocks, 0 < phys i
  below : ∀ i < nblocks, phys i + poolBlockSize < 4294967296
  apart : ∀ i < nblocks, ∀ j < nblocks, i ≠ j →
    phys i + poolBlockSize ≤ phys j ∨ phys j + poolBlockSize ≤ phys i

/-- The address lies in block `i`. -/
def PoolLayout.inBlock (L : PoolLayout) (phys i : ℕ) : Prop :=
  L.phys i ≤ phys ∧ phys < L.phys i + poolBlockSize

instance (L : PoolLayout) (phys i : ℕ) : Decidable (L.inBlock phys i) :=
  inferInstanceAs (Decidable (_ ∧ _))

/-- The block an address lies in. -/
def PoolLayout.blockOf (L : PoolLayout) (phys : ℕ) : Option ℕ :=
  (List.range L.nblocks).find? fun i => L.inBlock phys i

/-- The page of block `i` that an address lies in. -/
def PoolLayout.pageIn (L : PoolLayout) (i phys : ℕ) : ℕ := (phys - L.phys i) / pageSize

/-- `PAGE_ALIGN(size) >> PAGE_SHIFT`, where the sum wraps. -/
def pagesOf (size : ℕ) : ℕ := u32 ((size : ℤ) + 4095) / pageSize

/-! ## State -/

/-- The bitmaps: bit `j` of block `i`. -/
abbrev Bitmap := ℕ → ℕ → Bool

structure Pool where
  bitmap : Bitmap
  /-- The bits past the end of a bitmap that were cleared. -/
  stray : List (ℕ × ℕ)

/-- `vpu_pool_init`. -/
def Pool.init : Pool := ⟨fun _ _ => false, []⟩

/-! ## Operations -/

/-- `bitmap_find_next_zero_area` from bit 0 on: the first run of `nr` clear bits. -/
def findZeroArea (bits : ℕ → Bool) (nr : ℕ) : Option ℕ :=
  (List.range (poolBlockPages + 1 - nr)).find? fun idx =>
    (List.range nr).all fun j => !bits (idx + j)

/-- `bitmap_set` on block `i`. -/
def bitmapSet (bitmap : Bitmap) (i idx nr : ℕ) : Bitmap := fun k j =>
  if k = i ∧ idx ≤ j ∧ j < idx + nr then true else bitmap k j

/-- `bitmap_clear` on block `i`. -/
def bitmapClear (bitmap : Bitmap) (i idx nr : ℕ) : Bitmap := fun k j =>
  if k = i ∧ idx ≤ j ∧ j < idx + nr then false else bitmap k j

/-- The first block with room, and the place there. -/
def findRoom (L : PoolLayout) (bitmap : Bitmap) (npages : ℕ) : Option (ℕ × ℕ) :=
  (List.range L.nblocks).findSome? fun i => (findZeroArea (bitmap i) npages).map (i, ·)

/-- `vpu_pool_alloc`; the address is `0` on failure. -/
def vpuPoolAlloc (L : PoolLayout) (p : Pool) (size : ℕ) : Pool × ℕ :=
  let npages := pagesOf size
  if npages = 0 ∨ poolBlockPages < npages then
    (p, 0)
  else
    match findRoom L p.bitmap npages with
    | none => (p, 0)
    | some (i, idx) =>
      ({ p with bitmap := bitmapSet p.bitmap i idx npages }, L.phys i + idx * pageSize)

/-- `vpu_pool_free`. -/
def vpuPoolFree (L : PoolLayout) (p : Pool) (phys size : ℕ) : Pool :=
  let npages := pagesOf size
  if phys = 0 then
    p
  else
    match L.blockOf phys with
    | none => p
    | some i =>
      let idx := L.pageIn i phys
      { bitmap := bitmapClear p.bitmap i idx npages
        stray := p.stray ++
          (List.range (idx + npages - poolBlockPages)).map fun k => (i, poolBlockPages + k) }

/-! ## Pages -/

/-- A page of the pool: a block and a bit in its bitmap. -/
abbrev Page := ℕ × ℕ

def Pool.used (p : Pool) : Set Page := { x | p.bitmap x.1 x.2 = true }

/-- The pages that an address and a length stand for. -/
def PoolLayout.region (L : PoolLayout) (phys size : ℕ) : Set Page :=
  { x | L.blockOf phys = some x.1 ∧ L.pageIn x.1 phys ≤ x.2 ∧
    x.2 < L.pageIn x.1 phys + pagesOf size }

/-- A buffer that lies inside of one block and is not empty. -/
structure PoolLayout.Inside (L : PoolLayout) (phys size : ℕ) : Prop where
  aligned : phys % pageSize = 0
  pos : 0 < pagesOf size
  block : ∃ i, L.blockOf phys = some i ∧ L.pageIn i phys + pagesOf size ≤ poolBlockPages

section Rules

variable {L : PoolLayout} {p : Pool} {phys size i idx nr : ℕ}

theorem PoolLayout.blockOf_eq_some_iff :
    L.blockOf phys = some i ↔ i < L.nblocks ∧ L.inBlock phys i := by
  constructor
  · intro h
    have hmem := List.mem_of_find?_eq_some h
    have hin := List.find?_some h
    exact ⟨List.mem_range.mp hmem, of_decide_eq_true hin⟩
  · rintro ⟨hi, hin⟩
    cases hfound : L.blockOf phys with
    | none =>
      have hnot := List.find?_eq_none.mp hfound i (List.mem_range.mpr hi)
      simp [hin] at hnot
    | some j =>
      -- the blocks are apart, so the one that is found is the only one
      have hj := List.mem_range.mp (List.mem_of_find?_eq_some hfound)
      have hfirst := List.find?_some hfound
      have hjn : L.inBlock phys j := of_decide_eq_true hfirst
      by_cases hij : j = i
      · rw [hij]
      · obtain ⟨hil, hiu⟩ := hin
        obtain ⟨hjl, hju⟩ := hjn
        rcases L.apart j hj i hi hij with h | h <;> omega

theorem findZeroArea_some (h : findZeroArea (p.bitmap i) nr = some idx) (hnr : nr ≤ poolBlockPages) :
    idx + nr ≤ poolBlockPages ∧ ∀ j, idx ≤ j → j < idx + nr → p.bitmap i j = false := by
  have hmem := List.mem_range.mp (List.mem_of_find?_eq_some h)
  have hclear := List.find?_some h
  simp only [List.all_eq_true, List.mem_range, Bool.not_eq_true'] at hclear
  refine ⟨by omega, ?_⟩
  intro j hl hu
  have hbit := hclear (j - idx) (by omega)
  rwa [show idx + (j - idx) = j by omega] at hbit

/-- The address of page `idx` of block `i` is found again. -/
theorem PoolLayout.page_addr (hi : i < L.nblocks) (hidx : idx < poolBlockPages) :
    L.blockOf (L.phys i + idx * pageSize) = some i ∧ L.pageIn i (L.phys i + idx * pageSize) = idx ∧
      (L.phys i + idx * pageSize) % pageSize = 0 := by
  have haligned := L.aligned i hi
  refine ⟨PoolLayout.blockOf_eq_some_iff.mpr ⟨hi, ?_⟩, ?_, ?_⟩
  · unfold PoolLayout.inBlock
    simp only [poolBlockPages, pageSize, poolBlockSize] at *
    omega
  · simp only [PoolLayout.pageIn, pageSize, Nat.add_sub_cancel_left]
    omega
  · simp only [pageSize] at *
    omega

/-- `vpu_pool_alloc` marks the pages of an unused buffer, or changes nothing. -/
theorem vpuPoolAlloc_spec (L : PoolLayout) (p : Pool) (size : ℕ) :
    vpuPoolAlloc L p size = (p, 0) ∨
      ∃ p' phys, vpuPoolAlloc L p size = (p', phys) ∧ 0 < phys ∧ phys < 4294967296 ∧
        L.Inside phys size ∧ Disjoint (L.region phys size) p.used ∧
        p'.used = p.used ∪ L.region phys size ∧ p'.stray = p.stray := by
  unfold vpuPoolAlloc
  simp only
  split
  · -- No pages are asked for, or more than a block has.
    exact .inl rfl
  rename_i hpages
  simp only [not_or, not_lt] at hpages
  split
  · -- No block has so many free pages in a row.
    exact .inl rfl
  rename_i i idx hroom
  right
  obtain ⟨i', hi', harea⟩ := List.exists_of_findSome?_eq_some hroom
  obtain ⟨idx', hidx', heq⟩ := Option.map_eq_some_iff.mp harea
  cases heq
  have hi := List.mem_range.mp hi'
  obtain ⟨hend, hclear⟩ := findZeroArea_some hidx' hpages.2
  obtain ⟨hblock, hpage, haligned⟩ := L.page_addr hi (show idx < poolBlockPages by omega)
  have hpos := L.pos i hi
  have hbelow := L.below i hi
  have hregion : ∀ x, x ∈ L.region (L.phys i + idx * pageSize) size ↔
      x.1 = i ∧ idx ≤ x.2 ∧ x.2 < idx + pagesOf size := by
    rintro ⟨k, j⟩
    simp only [PoolLayout.region, Set.mem_ofPred_eq, hblock, Option.some.injEq]
    constructor
    · rintro ⟨rfl, hl, hu⟩
      rw [hpage] at hl hu
      exact ⟨rfl, hl, hu⟩
    · rintro ⟨rfl, hl, hu⟩
      rw [hpage]
      exact ⟨rfl, hl, hu⟩
  refine ⟨_, _, rfl, by omega, ?_, ⟨haligned, by omega, i, hblock, by omega⟩, ?_, ?_, rfl⟩
  · simp only [poolBlockPages, pageSize, poolBlockSize] at *
    omega
  · rw [Set.disjoint_left]
    intro x hx hused
    obtain ⟨hxi, hl, hu⟩ := (hregion x).mp hx
    have hbit := hclear x.2 hl hu
    rw [← hxi] at hbit
    simp [Pool.used, hbit] at hused
  · ext x
    rw [Set.mem_union, hregion x]
    simp only [Pool.used, Set.mem_ofPred_eq, bitmapSet]
    split
    · rename_i hin
      simp [hin]
    · rename_i hout
      simp [hout]

/-- `vpu_pool_free` clears the pages that its arguments stand for. -/
theorem vpuPoolFree_used (L : PoolLayout) (p : Pool) (phys size : ℕ) :
    (vpuPoolFree L p phys size).used = p.used \ L.region phys size := by
  have hnone : L.blockOf phys = none → p.used \ L.region phys size = p.used := by
    intro hb
    have hempty : L.region phys size = ∅ := by
      ext x
      simp [PoolLayout.region, hb]
    rw [hempty, Set.sdiff_empty]
  unfold vpuPoolFree
  simp only
  split
  · rename_i hzero
    refine (hnone ?_).symm
    -- no block is at address 0
    cases hb : L.blockOf phys with
    | none => rfl
    | some i =>
      obtain ⟨hi, hin⟩ := PoolLayout.blockOf_eq_some_iff.mp hb
      have hpos := L.pos i hi
      unfold PoolLayout.inBlock at hin
      omega
  split
  · rename_i hb
    exact (hnone hb).symm
  · rename_i i hb
    ext ⟨k, j⟩
    simp only [Pool.used, bitmapClear, Set.mem_ofPred_eq, Set.mem_sdiff, PoolLayout.region, hb,
      Option.some.injEq]
    by_cases hk : i = k
    · subst hk
      split <;> simp_all
    · rw [if_neg (fun h => hk h.1.symm)]
      simp [hk]

/-- Nothing past the end of a bitmap is cleared if the buffer ends inside of its block. -/
theorem vpuPoolFree_stray (L : PoolLayout) (p : Pool) (phys size : ℕ) :
    (vpuPoolFree L p phys size).stray = p.stray ↔
      ∀ i, L.blockOf phys = some i → L.pageIn i phys + pagesOf size ≤ poolBlockPages := by
  unfold vpuPoolFree
  simp only
  split
  · rename_i hzero
    refine ⟨fun _ i hb => ?_, fun _ => rfl⟩
    obtain ⟨hi, hin⟩ := PoolLayout.blockOf_eq_some_iff.mp hb
    have hpos := L.pos i hi
    unfold PoolLayout.inBlock at hin
    omega
  split
  · rename_i hb
    simp [hb]
  · rename_i i hb
    simp only [hb, Option.some.injEq, forall_eq', List.append_right_eq_self, List.map_eq_nil_iff,
      List.range_eq_nil]
    omega

end Rules

end Kernel
end ToonVpu
