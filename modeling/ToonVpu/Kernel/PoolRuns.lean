import ToonVpu.Kernel.Pool

/-!
# PoolRuns — histories of the DMA pool (`kernel/mxc_vpu.c`)

A history is a list of calls of `vpu_pool_alloc` and of `vpu_pool_free` with a live allocation, in
any order.  The live allocations are kept beside the pool; the driver keeps them in its records.

Over every history the set bits are the pages of the live allocations (`PoolRun.Inv`), and the rest
follows: where they are, when a request is refused, and what a free restores
(`vpu_pool_correct`).
-/

namespace ToonVpu
namespace Kernel

open Foundation
open Foundation.Ownership

/-! ## Histories -/

/-- What a successful `vpu_pool_alloc` was asked for and what it returned. -/
structure Allocation where
  phys : ℕ
  size : ℕ
  deriving DecidableEq, Repr

/-- The pool and the allocations that were not freed yet. -/
structure PoolRun where
  pool : Pool
  live : List Allocation

/-- A call: an allocation of an `unsigned long` of bytes, or the free of one of the live ones. -/
inductive PoolCall
  | alloc (size : UInt32)
  | free (k : ℕ)

variable (L : PoolLayout)

def PoolRun.init : PoolRun := ⟨Pool.init, []⟩

def PoolRun.call (s : PoolRun) : PoolCall → PoolRun
  | .alloc size =>
    let (p, phys) := vpuPoolAlloc L s.pool size.toNat
    if phys = 0 then ⟨p, s.live⟩ else ⟨p, ⟨phys, size.toNat⟩ :: s.live⟩
  | .free k =>
    match s.live[k]? with
    | none => s
    | some a => ⟨vpuPoolFree L s.pool a.phys a.size, s.live.eraseIdx k⟩

/-- The history from the pool as `vpu_pool_init` leaves it. -/
def poolRun (calls : List PoolCall) : PoolRun := calls.foldl (PoolRun.call L) .init

/-! ## What holds over a history -/

/-- The length of an allocation in whole pages. -/
def Allocation.length (a : Allocation) : ℕ := pagesOf a.size * pageSize

/-- The address of a page. -/
def PoolLayout.pageAddr (i j : ℕ) : ℕ := L.phys i + j * pageSize

/-- The page belongs to the allocation. -/
def Allocation.Has (a : Allocation) (i j : ℕ) : Prop :=
  i < L.nblocks ∧ j < poolBlockPages ∧ a.phys ≤ L.pageAddr i j ∧
    L.pageAddr i j < a.phys + a.length

/-- There is a run of `n` pages in a row in block `i` whose bits are clear. -/
def Pool.HasRun (p : Pool) (i n : ℕ) : Prop :=
  ∃ idx, idx + n ≤ poolBlockPages ∧ ∀ j, idx ≤ j → j < idx + n → p.bitmap i j = false

/-- What the pool promises. -/
structure PoolRun.Correct (s : PoolRun) : Prop where
  aligned : ∀ a ∈ s.live, a.phys % pageSize = 0
  large : ∀ a ∈ s.live, 0 < a.length ∧ a.size ≤ a.length
  inBlock : ∀ a ∈ s.live, ∃ i < L.nblocks,
    L.phys i ≤ a.phys ∧ a.phys + a.length ≤ L.phys i + poolBlockSize
  apart : s.live.Pairwise fun a b => a.phys + a.length ≤ b.phys ∨ b.phys + b.length ≤ a.phys
  pages : ∀ i j, s.pool.bitmap i j = true ↔ ∃ a ∈ s.live, a.Has L i j
  refuses : ∀ size : UInt32, (vpuPoolAlloc L s.pool size.toNat).2 = 0 ↔
    pagesOf size.toNat = 0 ∨ poolBlockPages < pagesOf size.toNat ∨
      ∀ i < L.nblocks, ¬ s.pool.HasRun i (pagesOf size.toNat)
  restores : ∀ size : UInt32, (vpuPoolAlloc L s.pool size.toNat).2 ≠ 0 →
    (vpuPoolFree L (vpuPoolAlloc L s.pool size.toNat).1 (vpuPoolAlloc L s.pool size.toNat).2
      size.toNat).bitmap = s.pool.bitmap

/-! ## The invariant -/

/-- The live allocations are the set bits, each inside of one block and of an `unsigned long` of
bytes. -/
structure PoolRun.Inv (s : PoolRun) : Prop where
  tiled : Tiled s.pool.used (s.live.map fun a => L.region a.phys a.size)
  inside : ∀ a ∈ s.live, L.Inside a.phys a.size
  short : ∀ a ∈ s.live, a.size < 4294967296

section Invariant

variable {L} {s : PoolRun} {a b : Allocation} {p : Pool} {i j n : ℕ}

theorem PoolRun.Inv.init : PoolRun.init.Inv L := by
  refine ⟨?_, fun _ h => absurd h List.not_mem_nil, fun _ h => absurd h List.not_mem_nil⟩
  have hempty : PoolRun.init.pool.used = ∅ := by
    ext x
    simp [PoolRun.init, Pool.init, Pool.used]
  rw [hempty]
  exact Tiled.nil

theorem PoolRun.Inv.alloc (h : s.Inv L) (size : UInt32) : (s.call L (.alloc size)).Inv L := by
  unfold PoolRun.call
  rcases vpuPoolAlloc_spec L s.pool size.toNat with hnone | ⟨p', phys, halloc, hpos, -, hin, hrest⟩
  · simp only [hnone, if_true]
    exact h
  · obtain ⟨hdisjoint, hused, -⟩ := hrest
    simp only [halloc, if_neg (Nat.ne_of_gt hpos)]
    refine ⟨?_, ?_, ?_⟩
    · simp only [hused, List.map_cons]
      exact h.tiled.handOut hdisjoint
    · intro a ha
      rcases List.mem_cons.mp ha with rfl | ha
      · exact hin
      · exact h.inside a ha
    · intro a ha
      rcases List.mem_cons.mp ha with rfl | ha
      · exact size.toNat_lt
      · exact h.short a ha

theorem PoolRun.call_free_none {k : ℕ} (hk : s.live[k]? = none) : s.call L (.free k) = s := by
  simp only [PoolRun.call, hk]

theorem PoolRun.call_free_some {k : ℕ} (hk : s.live[k]? = some a) :
    s.call L (.free k) = ⟨vpuPoolFree L s.pool a.phys a.size, s.live.eraseIdx k⟩ := by
  simp only [PoolRun.call, hk]

theorem PoolRun.Inv.free (h : s.Inv L) (k : ℕ) : (s.call L (.free k)).Inv L := by
  cases hk : s.live[k]? with
  | none =>
    rw [PoolRun.call_free_none hk]
    exact h
  | some a =>
    rw [PoolRun.call_free_some hk]
    obtain ⟨hlt, hget⟩ := List.getElem?_eq_some_iff.mp hk
    have hlive : s.live = s.live.take k ++ a :: s.live.drop (k + 1) := by
      rw [← hget, ← List.drop_eq_getElem_cons hlt, List.take_append_drop]
    have hsub : s.live.eraseIdx k ⊆ s.live := (List.eraseIdx_sublist _ _).subset
    refine ⟨?_, fun b hb => h.inside b (hsub hb), fun b hb => h.short b (hsub hb)⟩
    have htiled := h.tiled
    rw [hlive, List.map_append, List.map_cons] at htiled
    rw [vpuPoolFree_used, List.eraseIdx_eq_take_drop_succ, List.map_append]
    exact htiled.takeBack

/-- Over every history. -/
theorem PoolRun.Inv.run (h : s.Inv L) (calls : List PoolCall) :
    (calls.foldl (PoolRun.call L) s).Inv L := by
  induction calls generalizing s with
  | nil => exact h
  | cons c calls ih =>
    cases c with
    | alloc size => exact ih (h.alloc size)
    | free k => exact ih (h.free k)

/-! ## Pages -/

theorem pagesOf_large {size : ℕ} (hsize : size < 4294967296) (hpos : 0 < pagesOf size) :
    size ≤ pagesOf size * pageSize := by
  unfold pagesOf at *
  simp only [u32, pageSize] at *
  omega

/-- Where an allocation begins in its block. -/
theorem Allocation.phys_eq (h : L.Inside a.phys a.size) :
    ∃ i < L.nblocks, L.blockOf a.phys = some i ∧
      a.phys = L.pageAddr i (L.pageIn i a.phys) ∧
      L.pageIn i a.phys + pagesOf a.size ≤ poolBlockPages := by
  obtain ⟨i, hblock, hend⟩ := h.block
  obtain ⟨hi, hin⟩ := PoolLayout.blockOf_eq_some_iff.mp hblock
  refine ⟨i, hi, hblock, ?_, hend⟩
  have haligned := L.aligned i hi
  have hmod := h.aligned
  unfold PoolLayout.inBlock at hin
  simp only [PoolLayout.pageAddr, PoolLayout.pageIn, pageSize] at *
  omega

/-- The pages of the region are those whose addresses are in the allocation. -/
theorem Allocation.has_iff (h : L.Inside a.phys a.size) :
    a.Has L i j ↔ (i, j) ∈ L.region a.phys a.size := by
  obtain ⟨i', hi', hblock, hphys, hend⟩ := a.phys_eq h
  have hregion : (i, j) ∈ L.region a.phys a.size ↔
      i' = i ∧ L.pageIn i' a.phys ≤ j ∧ j < L.pageIn i' a.phys + pagesOf a.size := by
    simp only [PoolLayout.region, Set.mem_ofPred_eq, hblock, Option.some.injEq]
    constructor
    · rintro ⟨rfl, hl, hu⟩
      exact ⟨rfl, hl, hu⟩
    · rintro ⟨rfl, hl, hu⟩
      exact ⟨rfl, hl, hu⟩
  rw [hregion]
  unfold Allocation.Has
  generalize L.pageIn i' a.phys = page at hphys hend
  constructor
  · rintro ⟨hi, hj, hl, hu⟩
    -- the blocks are apart, so that the page is in the block of the allocation
    have hsame : i' = i := by
      by_contra hne
      have hapart := L.apart i' hi' i hi hne
      simp only [hphys, PoolLayout.pageAddr, Allocation.length, pageSize, poolBlockPages,
        poolBlockSize] at *
      omega
    subst hsame
    simp only [hphys, PoolLayout.pageAddr, Allocation.length, pageSize] at hl hu
    omega
  · rintro ⟨rfl, hl, hu⟩
    refine ⟨hi', by omega, ?_, ?_⟩
    · simp only [hphys, PoolLayout.pageAddr, pageSize]
      omega
    · simp only [hphys, PoolLayout.pageAddr, Allocation.length, pageSize]
      omega

/-- Allocations with no page in common do not overlap. -/
theorem Allocation.apart (ha : L.Inside a.phys a.size) (hb : L.Inside b.phys b.size)
    (hd : Disjoint (L.region a.phys a.size) (L.region b.phys b.size)) :
    a.phys + a.length ≤ b.phys ∨ b.phys + b.length ≤ a.phys := by
  by_contra hover
  rw [not_or, not_le, not_le] at hover
  obtain ⟨i, hi, hblock, hphys, hend⟩ := a.phys_eq ha
  obtain ⟨i', hi', hblock', hphys', hend'⟩ := b.phys_eq hb
  -- the later one begins with a page of both
  rcases le_total a.phys b.phys with hle | hle
  · have hpage : b.Has L i' (L.pageIn i' b.phys) := by
      refine ⟨hi', by have := hb.pos; omega, hphys'.le, ?_⟩
      rw [← hphys']
      have := hb.pos
      simp only [Allocation.length, pageSize]
      omega
    have hpage' : a.Has L i' (L.pageIn i' b.phys) :=
      ⟨hi', hpage.2.1, by rw [← hphys']; exact hle, by rw [← hphys']; exact hover.1⟩
    exact Set.disjoint_left.mp hd ((a.has_iff ha).mp hpage') ((b.has_iff hb).mp hpage)
  · have hpage : a.Has L i (L.pageIn i a.phys) := by
      refine ⟨hi, by have := ha.pos; omega, hphys.le, ?_⟩
      rw [← hphys]
      have := ha.pos
      simp only [Allocation.length, pageSize]
      omega
    have hpage' : b.Has L i (L.pageIn i a.phys) :=
      ⟨hi, hpage.2.1, by rw [← hphys]; exact hle, by rw [← hphys]; exact hover.2⟩
    exact Set.disjoint_left.mp hd ((a.has_iff ha).mp hpage) ((b.has_iff hb).mp hpage')

/-! ## Requests and frees -/

theorem findZeroArea_none_iff : findZeroArea (p.bitmap i) n = none ↔ ¬ p.HasRun i n := by
  unfold findZeroArea
  rw [List.find?_eq_none]
  constructor
  · rintro h ⟨idx, hend, hclear⟩
    refine h idx (List.mem_range.mpr (by omega)) ?_
    rw [List.all_eq_true]
    intro j hj
    have hbit := hclear (idx + j) (Nat.le_add_right _ _)
      (Nat.add_lt_add_left (List.mem_range.mp hj) idx)
    simpa using hbit
  · intro h idx hidx hall
    have hlt := List.mem_range.mp hidx
    refine h ⟨idx, by omega, fun j hl hu => ?_⟩
    have hbit := List.all_eq_true.mp hall (j - idx) (List.mem_range.mpr (by omega))
    rw [Nat.add_sub_of_le hl] at hbit
    simpa using hbit

/-- A request is refused for its size, or because no block has room. -/
theorem vpuPoolAlloc_zero_iff (size : ℕ) :
    (vpuPoolAlloc L p size).2 = 0 ↔
      pagesOf size = 0 ∨ poolBlockPages < pagesOf size ∨
        ∀ i < L.nblocks, ¬ p.HasRun i (pagesOf size) := by
  have hroom : findRoom L p.bitmap (pagesOf size) = none ↔
      ∀ i < L.nblocks, ¬ p.HasRun i (pagesOf size) := by
    simp only [findRoom, List.findSome?_eq_none_iff, List.mem_range, Option.map_eq_none_iff,
      findZeroArea_none_iff]
  unfold vpuPoolAlloc
  simp only
  by_cases hpages : pagesOf size = 0 ∨ poolBlockPages < pagesOf size
  · rw [if_pos hpages]
    exact iff_of_true rfl (or_assoc.mp (.inl hpages))
  · rw [if_neg hpages, ← or_assoc, or_iff_right hpages, ← hroom]
    cases hfound : findRoom L p.bitmap (pagesOf size) with
    | none => exact iff_of_true rfl rfl
    | some place =>
      obtain ⟨i, idx⟩ := place
      obtain ⟨i', hi', harea⟩ := List.exists_of_findSome?_eq_some hfound
      obtain ⟨idx', -, heq⟩ := Option.map_eq_some_iff.mp harea
      cases heq
      have hpos := L.pos i (List.mem_range.mp hi')
      exact iff_of_false (by simp only; omega) (by simp)

/-- The bitmaps are the set of their bits. -/
theorem Pool.bitmap_eq {q : Pool} (h : p.used = q.used) : p.bitmap = q.bitmap := by
  funext i j
  exact Bool.eq_iff_iff.mpr (Set.ext_iff.mp h (i, j))

theorem vpuPoolFree_alloc {size : ℕ} (h : (vpuPoolAlloc L p size).2 ≠ 0) :
    (vpuPoolFree L (vpuPoolAlloc L p size).1 (vpuPoolAlloc L p size).2 size).bitmap =
      p.bitmap := by
  rcases vpuPoolAlloc_spec L p size with hnone | ⟨p', phys, halloc, -, -, -, hdisjoint, hused, -⟩
  · rw [hnone] at h
    exact absurd rfl h
  · rw [halloc]
    apply Pool.bitmap_eq
    calc (vpuPoolFree L p' phys size).used
        = (p.used ∪ L.region phys size) \ L.region phys size := by
          rw [vpuPoolFree_used, hused]
      _ = p.used := by
          rw [Set.union_sdiff_right]
          exact hdisjoint.symm.sdiff_eq_left

theorem PoolRun.Inv.pages (h : s.Inv L) (i j : ℕ) :
    s.pool.bitmap i j = true ↔ ∃ a ∈ s.live, a.Has L i j := by
  have hcovers := h.tiled.covers (i, j)
  simp only [List.mem_map, exists_exists_and_eq_and] at hcovers
  refine hcovers.trans (exists_congr fun a => and_congr_right fun ha => ?_)
  exact (a.has_iff (h.inside a ha)).symm

theorem PoolRun.Inv.correct (h : s.Inv L) : s.Correct L where
  aligned a ha := (h.inside a ha).aligned
  large a ha := by
    have hpos := (h.inside a ha).pos
    refine ⟨?_, pagesOf_large (h.short a ha) hpos⟩
    simp only [Allocation.length, pageSize]
    omega
  inBlock a ha := by
    obtain ⟨i, hi, -, hphys, hend⟩ := a.phys_eq (h.inside a ha)
    refine ⟨i, hi, ?_, ?_⟩
    · rw [hphys]
      exact Nat.le_add_right _ _
    · rw [hphys]
      simp only [PoolLayout.pageAddr, Allocation.length, pageSize, poolBlockPages,
        poolBlockSize] at *
      omega
  apart := by
    have hdisjoint := List.pairwise_map.mp h.tiled.disjoint
    exact hdisjoint.imp_of_mem fun ha hb hd =>
      Allocation.apart (h.inside _ ha) (h.inside _ hb) hd
  pages := h.pages
  refuses size := vpuPoolAlloc_zero_iff size.toNat
  restores _ := vpuPoolFree_alloc

/-- Over every history the pool keeps its promises, and the bitmaps depend on the live allocations
alone: freeing what was allocated since leaves them as they were. -/
theorem vpu_pool_correct (L : PoolLayout) (calls : List PoolCall) :
    (poolRun L calls).Correct L ∧
      ∀ calls', (poolRun L calls').live.Perm (poolRun L calls).live →
        (poolRun L calls').pool.bitmap = (poolRun L calls).pool.bitmap := by
  have hinv : ∀ calls, (poolRun L calls).Inv L := fun calls => PoolRun.Inv.init.run calls
  refine ⟨(hinv calls).correct, fun calls' hperm => ?_⟩
  funext i j
  rw [Bool.eq_iff_iff, (hinv calls').pages i j, (hinv calls).pages i j]
  simp only [hperm.mem_iff]

end Invariant

end Kernel
end ToonVpu
