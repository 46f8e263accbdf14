import ToonVpu.Kernel.Driver

/-!
# Confinement — what `VPU_IOC_PHYMEM_FREE` can free

Every allocation record stands for pages of its own that are marked in the bitmaps.  The free call
takes the pages to clear from the caller's `phy_addr` and `size`, and the record to delete from its
`cpu_addr`.  It stays within one record exactly when the three agree.

The calls may come from any process, with any descriptor.
-/

namespace ToonVpu
namespace Kernel

open Foundation
open Foundation.Ownership
open Foundation.Runs

/-! ## Records -/

/-- A descriptor as `vpu_alloc_dma_buffer` fills it. -/
structure MemDesc.Placed (L : PoolLayout) (m : MemDesc) : Prop where
  cpu_eq : m.cpuAddr = m.phyAddr
  cpu_ne : m.cpuAddr ≠ 0
  inside : L.Inside m.phyAddr m.size

/-- The regions of the allocation records. -/
def Driver.recordRegions (L : PoolLayout) (d : Driver) : List (Set Page) :=
  d.head.map (MemDesc.region L)

/-- The records have pages of their own. -/
structure RecordsInv (L : PoolLayout) (d : Driver) : Prop where
  placed : ∀ m ∈ d.head, m.Placed L
  separated : Separated d.pool.used (d.recordRegions L)

section Buffers

variable {L : PoolLayout} {d d' : Driver}

/-- `vpu_alloc_dma_buffer` fails and changes nothing, or fills the descriptor with unused pages. -/
theorem vpuAllocDmaBuffer_spec (L : PoolLayout) (d : Driver) (mem : MemDesc) :
    vpuAllocDmaBuffer L d mem = (d, none) ∨
      ∃ pool phys, vpuAllocDmaBuffer L d mem =
          ({ d with pool := pool, pooled := (phys, mem.size) :: d.pooled },
            some { mem with phyAddr := phys, cpuAddr := phys }) ∧
        MemDesc.Placed L { mem with phyAddr := phys, cpuAddr := phys } ∧
        phys < 4294967296 ∧
        Disjoint (L.region phys mem.size) d.pool.used ∧
        pool.used = d.pool.used ∪ L.region phys mem.size ∧ pool.stray = d.pool.stray := by
  unfold vpuAllocDmaBuffer
  rcases vpuPoolAlloc_spec L d.pool mem.size with hfail | ⟨pool, phys, heq, hpos, hlt, hin, hrest⟩
  · left
    simp [hfail]
  · right
    have hne : phys ≠ 0 := Nat.ne_of_gt hpos
    refine ⟨pool, phys, ?_, ⟨rfl, hne, hin⟩, hlt, hrest⟩
    simp [heq, hne]

theorem vpuFreeDmaBuffer_used (L : PoolLayout) (d : Driver) (mem : MemDesc) :
    (vpuFreeDmaBuffer L d mem).pool.used = d.pool.used \ mem.region L := by
  unfold vpuFreeDmaBuffer
  split
  · exact vpuPoolFree_used L d.pool mem.phyAddr mem.size
  · rename_i hzero
    have hfree := vpuPoolFree_used L d.pool mem.phyAddr mem.size
    rw [not_not.mp hzero] at hfree
    simpa [vpuPoolFree, MemDesc.region, not_not.mp hzero] using hfree

@[simp] theorem vpuFreeDmaBuffer_head (L : PoolLayout) (d : Driver) (mem : MemDesc) :
    (vpuFreeDmaBuffer L d mem).head = d.head := by
  unfold vpuFreeDmaBuffer
  split <;> rfl

/-- The descriptor does not reach past the end of the block it starts in. -/
def MemDesc.EndsInBlock (L : PoolLayout) (m : MemDesc) : Prop :=
  ∀ i, L.blockOf m.phyAddr = some i → L.pageIn i m.phyAddr + pagesOf m.size ≤ poolBlockPages

theorem vpuFreeDmaBuffer_stray (L : PoolLayout) (d : Driver) (mem : MemDesc) :
    (vpuFreeDmaBuffer L d mem).pool.stray = d.pool.stray ↔ mem.EndsInBlock L := by
  have hfree := vpuPoolFree_stray L d.pool mem.phyAddr mem.size
  unfold vpuFreeDmaBuffer
  split
  · exact hfree
  · rename_i hzero
    simpa [vpuPoolFree, MemDesc.EndsInBlock, not_not.mp hzero] using hfree

/-- Records keep their pages while others are marked. -/
theorem RecordsInv.leak (h : RecordsInv L d) {r : Set Page} (hhead : d'.head = d.head)
    (hused : d'.pool.used = d.pool.used ∪ r) : RecordsInv L d' := by
  refine ⟨by rw [hhead]; exact h.placed, ?_⟩
  unfold Driver.recordRegions
  rw [hhead, hused]
  exact h.separated.leak r

theorem RecordsInv.same (h : RecordsInv L d) (hhead : d'.head = d.head)
    (hpool : d'.pool = d.pool) : RecordsInv L d' := by
  refine ⟨by rw [hhead]; exact h.placed, ?_⟩
  unfold Driver.recordRegions
  rw [hhead, hpool]
  exact h.separated

theorem RecordsInv.phymemAlloc (h : RecordsInv L d) (arg : MemDesc) (env : IoctlEnv) :
    RecordsInv L (phymemAlloc L d arg env).1 := by
  unfold Kernel.phymemAlloc
  split
  · exact h
  split
  · exact h
  rcases vpuAllocDmaBuffer_spec L d (copyFromUser arg env.readable) with
    hfail | ⟨pool, phys, heq, hplaced, -, hfresh, hused, -⟩
  · rw [hfail]
    exact h
  rw [heq]
  simp only
  split
  · exact h.leak rfl hused
  · refine ⟨?_, ?_⟩
    · intro m hm
      rcases List.mem_cons.mp hm with rfl | hm
      · exact hplaced
      · exact h.placed m hm
    · simp only [Driver.recordRegions, List.map_cons, hused]
      exact h.separated.handOut hfresh

theorem RecordsInv.getWorkAddr (h : RecordsInv L d) (arg : MemDesc) (env : IoctlEnv) :
    RecordsInv L (getWorkAddr L d arg env).1 := by
  unfold Kernel.getWorkAddr
  split
  · exact h
  simp only
  split
  · exact h.same rfl rfl
  rcases vpuAllocDmaBuffer_spec L { d with bitworkMem := copyFromUser arg env.readable }
      (copyFromUser arg env.readable) with hfail | ⟨pool, phys, heq, -, -, -, hused, -⟩
  · rw [hfail]
    exact h.same rfl rfl
  · rw [heq]
    simp only
    split <;> exact h.leak rfl hused

/-- The last close leaves no record. -/
theorem vpuFreeBuffers_head (h : RecordsInv L d) : (vpuFreeBuffers L d).head = [] := by
  unfold vpuFreeBuffers
  simp only [List.filter_eq_nil_iff, decide_eq_true_eq]
  intro m hm
  exact (h.placed m hm).cpu_ne

theorem RecordsInv.release (h : RecordsInv L d) : RecordsInv L (vpuRelease L d) := by
  unfold vpuRelease
  split
  · simp only
    split
    · have hnone : (vpuFreeBuffers L { d with openCount := d.openCount - 1 }).head = [] :=
        vpuFreeBuffers_head (h.same rfl rfl)
      refine ⟨?_, ?_⟩
      · rw [hnone]
        exact fun m hm => absurd hm List.not_mem_nil
      · unfold Driver.recordRegions
        rw [hnone]
        exact Separated.nil _
    · exact h.same rfl rfl
  · exact h

end Buffers

/-! ## The free call -/

/-- From `d` to `d'` nothing was freed, or one record with its own pages; no page of a record that
stays or of the work buffer was cleared, and no bit outside of the bitmaps. -/
structure Confined (L : PoolLayout) (d d' : Driver) : Prop where
  exact : (d'.pool.used = d.pool.used ∧ d'.head = d.head) ∨
    ∃ pre m post, d.head = pre ++ m :: post ∧ d'.head = pre ++ post ∧
      d'.pool.used = d.pool.used \ m.region L
  records : ∀ m ∈ d'.head, m.region L ∩ d.pool.used ⊆ d'.pool.used
  bitwork : d.bitworkMem.cpuAddr ≠ 0 →
    d.bitworkMem.region L ∩ d.pool.used ⊆ d'.pool.used
  stray : d'.pool.stray = d.pool.stray

/-- The record that `cpu_addr` names. -/
def Driver.recordOf (d : Driver) (cpuAddr : ℕ) : Option MemDesc :=
  d.head.find? fun rec => rec.cpuAddr = cpuAddr

/-- The descriptor names a record and covers its pages, with nothing else that is in use and
nothing past the end of the block; or it names none and covers no page in use. -/
def NamesOwnPages (L : PoolLayout) (d : Driver) (mem : MemDesc) : Prop :=
  match d.recordOf mem.cpuAddr with
  | none => mem.cpuAddr = 0 ∨ mem.EndsInBlock L ∧ Disjoint (mem.region L) d.pool.used
  | some m =>
    mem.EndsInBlock L ∧ m.region L ⊆ mem.region L ∧
      Disjoint (mem.region L \ m.region L) d.pool.used ∧
      (d.bitworkMem.cpuAddr ≠ 0 → Disjoint (d.bitworkMem.region L) (m.region L))

section Free

variable {L : PoolLayout} {d : Driver} {mem : MemDesc}

/-- The driver after a free call whose descriptor could be read. -/
def Driver.afterFree (L : PoolLayout) (d : Driver) (mem : MemDesc) : Driver :=
  let d := if mem.cpuAddr ≠ 0 then vpuFreeDmaBuffer L d mem else d
  { d with head := d.head.eraseP fun rec => rec.cpuAddr = mem.cpuAddr }

/-- A record that is named is deleted, the first one of its name. -/
theorem recordOf_some {m : MemDesc} {cpuAddr : ℕ} (h : d.recordOf cpuAddr = some m) :
    ∃ pre post, d.head = pre ++ m :: post ∧
      d.head.eraseP (fun rec => rec.cpuAddr = cpuAddr) = pre ++ post ∧ m.cpuAddr = cpuAddr := by
  obtain ⟨hm, pre, post, hhead, hpre⟩ := List.find?_eq_some_iff_append.mp h
  refine ⟨pre, post, hhead, ?_, of_decide_eq_true hm⟩
  rw [hhead, List.eraseP_append_right _ (fun x hx => by simpa using hpre x hx),
    List.eraseP_cons_of_pos (by simpa using hm)]

theorem recordOf_none {cpuAddr : ℕ} (h : d.recordOf cpuAddr = none) :
    d.head.eraseP (fun rec => rec.cpuAddr = cpuAddr) = d.head := by
  apply List.eraseP_of_forall_not
  simpa [Driver.recordOf, List.find?_eq_none] using h

/-- No record is at address 0. -/
theorem recordOf_zero (h : RecordsInv L d) : d.recordOf 0 = none := by
  unfold Driver.recordOf
  rw [List.find?_eq_none]
  intro m hm hzero
  exact (h.placed m hm).cpu_ne (of_decide_eq_true hzero)

theorem afterFree_used (hne : mem.cpuAddr ≠ 0) :
    (d.afterFree L mem).pool.used = d.pool.used \ mem.region L := by
  simp only [Driver.afterFree, if_pos hne]
  exact vpuFreeDmaBuffer_used L d mem

theorem afterFree_head (L : PoolLayout) (d : Driver) (mem : MemDesc) :
    (d.afterFree L mem).head = d.head.eraseP fun rec => rec.cpuAddr = mem.cpuAddr := by
  simp only [Driver.afterFree]
  split
  · rw [vpuFreeDmaBuffer_head]
  · rfl

theorem afterFree_stray (hne : mem.cpuAddr ≠ 0) :
    (d.afterFree L mem).pool.stray = d.pool.stray ↔ mem.EndsInBlock L := by
  simp only [Driver.afterFree, if_pos hne]
  exact vpuFreeDmaBuffer_stray L d mem

/-- Two sets of pages that are cleared have the same effect if they agree on the used ones. -/
theorem sdiff_eq_sdiff_iff {used a b : Set Page} (ha : a ⊆ used) :
    used \ b = used \ a ↔ a ⊆ b ∧ Disjoint (b \ a) used := by
  constructor
  · intro h
    refine ⟨?_, ?_⟩
    · intro x hx
      by_contra hb
      have hin : x ∈ used \ b := ⟨ha hx, hb⟩
      rw [h] at hin
      exact hin.2 hx
    · rw [Set.disjoint_left]
      rintro x ⟨hb, hna⟩ hused
      have hin : x ∈ used \ a := ⟨hused, hna⟩
      rw [← h] at hin
      exact hin.2 hb
  · rintro ⟨hsub, hdisj⟩
    ext x
    constructor
    · rintro ⟨hused, hnb⟩
      exact ⟨hused, fun hxa => hnb (hsub hxa)⟩
    · rintro ⟨hused, hna⟩
      exact ⟨hused, fun hb => Set.disjoint_left.mp hdisj ⟨hb, hna⟩ hused⟩

/-- A free call that names no record. -/
theorem confined_iff_of_none (hnone : d.recordOf mem.cpuAddr = none) (hne : mem.cpuAddr ≠ 0) :
    Confined L d (d.afterFree L mem) ↔
      mem.EndsInBlock L ∧ Disjoint (mem.region L) d.pool.used := by
  have hhead : (d.afterFree L mem).head = d.head := by
    rw [afterFree_head, recordOf_none hnone]
  have hused := afterFree_used (L := L) (d := d) hne
  have hstray := afterFree_stray (L := L) (d := d) hne
  constructor
  · intro h
    refine ⟨hstray.mp h.stray, ?_⟩
    rcases h.exact with ⟨hsame, -⟩ | ⟨pre, m, post, hbefore, hafter, -⟩
    · rw [hused] at hsame
      rw [Set.disjoint_left]
      intro x hx hxu
      rw [← hsame] at hxu
      exact hxu.2 hx
    · -- no record is deleted
      have hlen := congrArg List.length (hbefore.symm.trans (hhead.symm.trans hafter))
      simp only [List.length_append, List.length_cons] at hlen
      omega
  · rintro ⟨hend, hdisj⟩
    have hsame : (d.afterFree L mem).pool.used = d.pool.used := by
      rw [hused]
      exact sdiff_eq_left.mpr hdisj.symm
    refine ⟨.inl ⟨hsame, hhead⟩, ?_, ?_, hstray.mpr hend⟩
    · intro m _
      rw [hsame]
      exact Set.inter_subset_right
    · intro _
      rw [hsame]
      exact Set.inter_subset_right

/-- What is left of a list tells which element was taken out. -/
theorem removed_unique {pre post pre' post' : List MemDesc} {m m' : MemDesc}
    (hbefore : pre ++ m :: post = pre' ++ m' :: post') (hafter : pre ++ post = pre' ++ post') :
    m = m' := by
  have hperm : (m :: (pre ++ post)).Perm (m' :: (pre ++ post)) := by
    calc
      List.Perm (m :: (pre ++ post)) (pre ++ m :: post) := List.perm_middle.symm
      List.Perm _ (m' :: (pre' ++ post')) := by
        rw [hbefore]
        exact List.perm_middle
      _ = m' :: (pre ++ post) := by rw [hafter]
  by_contra hne
  have hcount := hperm.count_eq m
  rw [List.count_cons_self, List.count_cons_of_ne (Ne.symm hne)] at hcount
  omega

/-- A free call that names a record. -/
theorem confined_iff_of_some {m : MemDesc} (h : RecordsInv L d)
    (hsome : d.recordOf mem.cpuAddr = some m) :
    Confined L d (d.afterFree L mem) ↔
      mem.EndsInBlock L ∧ m.region L ⊆ mem.region L ∧
        Disjoint (mem.region L \ m.region L) d.pool.used ∧
        (d.bitworkMem.cpuAddr ≠ 0 → Disjoint (d.bitworkMem.region L) (m.region L)) := by
  obtain ⟨pre, post, hhead, herase, hcpu⟩ := recordOf_some hsome
  have hm : m ∈ d.head := by simp [hhead]
  have hne : mem.cpuAddr ≠ 0 := by
    rw [← hcpu]
    exact (h.placed m hm).cpu_ne
  have hafter : (d.afterFree L mem).head = pre ++ post := by rw [afterFree_head, herase]
  have hused := afterFree_used (L := L) (d := d) hne
  have hstray := afterFree_stray (L := L) (d := d) hne
  have hown : m.region L ⊆ d.pool.used :=
    h.separated.used _ (List.mem_map_of_mem hm)
  constructor
  · intro hconf
    -- What goes out of the pool is exactly the region of the record.
    have hexact : (d.afterFree L mem).pool.used = d.pool.used \ m.region L := by
      rcases hconf.exact with ⟨-, hsame⟩ | ⟨pre', m', post', hbefore', hafter', hused'⟩
      · have hlen := congrArg List.length (hhead.symm.trans (hsame.symm.trans hafter))
        simp only [List.length_append, List.length_cons] at hlen
        omega
      · rw [removed_unique (hhead.symm.trans hbefore') (hafter.symm.trans hafter')]
        exact hused'
    obtain ⟨hcover, hrest⟩ := (sdiff_eq_sdiff_iff hown).mp (hused.symm.trans hexact)
    refine ⟨hstray.mp hconf.stray, hcover, hrest, ?_⟩
    intro hlive
    rw [Set.disjoint_left]
    intro x hx hxm
    have hstill := hconf.bitwork hlive ⟨hx, hown hxm⟩
    rw [hexact] at hstill
    exact hstill.2 hxm
  · rintro ⟨hend, hcover, hrest, hbit⟩
    have hexact : (d.afterFree L mem).pool.used = d.pool.used \ m.region L :=
      hused.trans ((sdiff_eq_sdiff_iff hown).mpr ⟨hcover, hrest⟩)
    refine ⟨.inr ⟨pre, m, post, hhead, hafter, hexact⟩, ?_, ?_, hstray.mpr hend⟩
    · intro m' hm'
      have hsep := h.separated
      unfold Driver.recordRegions at hsep
      rw [hhead, List.map_append, List.map_cons] at hsep
      have hapart := hsep.apart (m'.region L) (by
        rw [← List.map_append]
        exact List.mem_map_of_mem (hafter ▸ hm'))
      rw [hexact]
      rintro x ⟨hx, hxu⟩
      exact ⟨hxu, fun hxm => Set.disjoint_left.mp hapart hx hxm⟩
    · intro hlive
      rw [hexact]
      rintro x ⟨hx, hxu⟩
      exact ⟨hxu, fun hxm => Set.disjoint_left.mp (hbit hlive) hx hxm⟩

theorem confined_iff (h : RecordsInv L d) :
    Confined L d (d.afterFree L mem) ↔ NamesOwnPages L d mem := by
  unfold NamesOwnPages
  cases hrec : d.recordOf mem.cpuAddr with
  | none =>
    by_cases hzero : mem.cpuAddr = 0
    · -- nothing is freed and no record has this name
      have hsame : d.afterFree L mem = d := by
        unfold Driver.afterFree
        simp only [hzero, ne_eq, not_true_eq_false, if_false]
        rw [recordOf_none (recordOf_zero h)]
      refine ⟨fun _ => .inl hzero, fun _ => ?_⟩
      rw [hsame]
      exact ⟨.inl ⟨rfl, rfl⟩, fun _ _ => Set.inter_subset_right, fun _ => Set.inter_subset_right,
        rfl⟩
    · rw [confined_iff_of_none hrec hzero]
      exact ⟨.inr, fun hor => hor.resolve_left hzero⟩
  | some m => exact confined_iff_of_some h hrec

/-- A confined free call leaves the other records with their pages. -/
theorem RecordsInv.afterFree (h : RecordsInv L d) (hconf : Confined L d (d.afterFree L mem)) :
    RecordsInv L (d.afterFree L mem) := by
  have hsub : ((d.afterFree L mem).head).Sublist d.head := by
    rw [afterFree_head]
    exact List.eraseP_sublist
  refine ⟨fun m hm => h.placed m (hsub.subset hm), ?_, h.separated.disjoint.sublist (hsub.map _)⟩
  intro r hr
  obtain ⟨m, hm, rfl⟩ := List.mem_map.mp hr
  have hused := h.separated.used _ (List.mem_map_of_mem (hsub.subset hm))
  intro x hx
  exact hconf.records m hm ⟨hx, hused hx⟩

end Free

/-! ## Runs -/

/-- A free call stays within one record. -/
def FreeConfined (L : PoolLayout) (d : Driver) (a : Call) : Prop :=
  ∀ arg env, a = .phymemFree arg env → Confined L d (d.step L a)

/-- The descriptor of a free call, where it can be read, names its own pages. -/
def FreeNamesOwnPages (L : PoolLayout) (d : Driver) (a : Call) : Prop :=
  ∀ arg env, a = .phymemFree arg env → memDescSize ≤ env.readable →
    NamesOwnPages L d (copyFromUser arg env.readable)

section Runs

variable {L : PoolLayout} {d : Driver}

theorem step_phymemFree (arg : MemDesc) (env : IoctlEnv) :
    d.step L (.phymemFree arg env) =
      if env.readable < memDescSize then d else d.afterFree L (copyFromUser arg env.readable) := by
  simp only [Driver.step, Driver.call, phymemFree]
  split <;> rfl

theorem freeConfined_iff (h : RecordsInv L d) (a : Call) :
    FreeConfined L d a ↔ FreeNamesOwnPages L d a := by
  constructor
  · rintro hconf arg env rfl hread
    have hstep := hconf arg env rfl
    rw [step_phymemFree, if_neg (not_lt.mpr hread)] at hstep
    exact (confined_iff h).mp hstep
  · rintro hnames arg env rfl
    rw [step_phymemFree]
    split
    · exact ⟨.inl ⟨rfl, rfl⟩, fun _ _ => Set.inter_subset_right, fun _ => Set.inter_subset_right,
        rfl⟩
    · rename_i hread
      exact (confined_iff h).mpr (hnames arg env rfl (not_lt.mp hread))

theorem RecordsInv.init (L : PoolLayout) : RecordsInv L Driver.init :=
  ⟨fun _ hm => absurd hm List.not_mem_nil, Separated.nil _⟩

theorem RecordsInv.step (h : RecordsInv L d) {a : Call} (hok : FreeNamesOwnPages L d a) :
    RecordsInv L (d.step L a) := by
  cases a with
  | openFile => exact h.same rfl rfl
  | releaseFile => exact h.release
  | phymemAlloc arg env => exact h.phymemAlloc arg env
  | phymemFree arg env =>
    have hconf := (freeConfined_iff h _).mpr hok arg env rfl
    rw [step_phymemFree] at hconf ⊢
    split
    · exact h
    · rename_i hread
      rw [if_neg hread] at hconf
      exact h.afterFree hconf
  | getWorkAddr arg env => exact h.getWorkAddr arg env
  | setBitworkMem arg env => exact h.same rfl rfl
  | getShareMem arg env =>
    simp only [Driver.step, Driver.call, getShareMem]
    split_ifs <;> exact h.same rfl rfl
  | reqVshareMem arg env =>
    simp only [Driver.step, Driver.call, reqVshareMem]
    split_ifs <;> exact h.same rfl rfl

end Runs

/-- **`VPU_IOC_PHYMEM_FREE` is confined.** In every run of calls from any processes, each free call
clears nothing or one record with its pages, exactly when the descriptor of each free call names the
pages it covers. -/
theorem phymem_free_is_confined (L : PoolLayout) (calls : List Call) :
    Along (Driver.step L) Driver.init calls (FreeConfined L) ↔
      Along (Driver.step L) Driver.init calls (FreeNamesOwnPages L) := by
  apply along_iff_along (RecordsInv.init L)
  · intro d a h hok
    exact h.step hok
  · intro d a h
    exact freeConfined_iff h a

/-- One block, at 16 MB. -/
def oneBlock : PoolLayout where
  nblocks := 1
  phys := fun _ => 16777216
  nblocks_le := by decide
  aligned := by decide
  pos := by decide
  below := by decide
  apart := by omega

/-- A call that meets no trouble in the kernel. -/
def calm : IoctlEnv := ⟨true, memDescSize, 0, 0⟩

/-- Two buffers of one page are allocated, and the first is freed with twice its size. -/
def oversizedFree : List Call :=
  [.phymemAlloc ⟨4096, 0, 0, 0⟩ calm, .phymemAlloc ⟨4096, 0, 0, 0⟩ calm,
    .phymemFree ⟨8192, 16777216, 16777216, 0⟩ calm]

/-- The page of the second buffer is marked free while its record stays. -/
theorem phymem_free_clears_other_record :
    ¬ Along (Driver.step oneBlock) Driver.init oversizedFree (FreeConfined oneBlock) := by
  intro hrun
  have hconf := hrun 2 _ rfl _ _ rfl
  have hother : (⟨4096, 16781312, 16781312, 0⟩ : MemDesc) ∈
      (stateAt (Driver.step oneBlock) Driver.init oversizedFree 3).head := by
    decide +kernel
  have hpage : ((0, 1) : Page) ∈ MemDesc.region oneBlock ⟨4096, 16781312, 16781312, 0⟩ := by
    unfold MemDesc.region PoolLayout.region
    rw [Set.mem_ofPred_eq]
    decide +kernel
  have hbefore : ((0, 1) : Page) ∈
      (stateAt (Driver.step oneBlock) Driver.init oversizedFree 2).pool.used := by
    unfold Pool.used
    rw [Set.mem_ofPred_eq]
    decide +kernel
  have hafter := hconf.records _ hother ⟨hpage, hbefore⟩
  unfold Pool.used at hafter
  rw [Set.mem_ofPred_eq] at hafter
  revert hafter
  decide +kernel

end Kernel
end ToonVpu
