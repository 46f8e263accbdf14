import ToonVpu.Kernel.Confinement

/-!
# Provenance — where the driver's lasting descriptors come from

`vpu_mmap` and `vpu_exit` act on the addresses in `share_mem`, `vshare_mem` and `bitwork_mem`, so
these have to be addresses that the kernel's own allocators returned.  Each of the three calls that
fill them copies the caller's descriptor over the kernel's first and looks at it afterwards.
-/

namespace ToonVpu
namespace Kernel

open Foundation.Runs

/-- An address is unset or was returned for its size. -/
def Descends (m : MemDesc) (returned : List (ℕ × ℕ)) : Prop :=
  m.cpuAddr = 0 ∨ (m.cpuAddr, m.size) ∈ returned

/-- The lasting descriptors are unset or come from the allocators. -/
structure Provenance (d : Driver) : Prop where
  share : Descends d.shareMem d.vmalloced
  vshare : Descends d.vshareMem d.vmalloced
  bitwork : Descends d.bitworkMem d.pooled

/-- A call that fails does not set the descriptor it was to fill. -/
def FailsUnset (L : PoolLayout) (d : Driver) (a : Call) : Prop :=
  (d.call L a).2 ≠ 0 →
    match a with
    | .getShareMem _ _ => d.shareMem.cpuAddr = 0 → (d.step L a).shareMem.cpuAddr = 0
    | .reqVshareMem _ _ => d.vshareMem.cpuAddr = 0 → (d.step L a).vshareMem.cpuAddr = 0
    | .getWorkAddr _ _ => d.bitworkMem.cpuAddr = 0 → (d.step L a).bitworkMem.cpuAddr = 0
    | _ => True

/-- A call keeps the provenance of the descriptors and sets none when it fails. -/
def KeepsProvenance (L : PoolLayout) (d : Driver) (a : Call) : Prop :=
  Provenance (d.step L a) ∧ FailsUnset L d a

/-! ## What the calls rely on -/

/-- Of a descriptor that cannot be read whole, no part of its address is read. -/
def ReadsNoAddress (arg : MemDesc) (env : IoctlEnv) : Prop :=
  env.readable < memDescSize → (copyFromUser arg env.readable).cpuAddr = 0

/-- `GET_SHARE_MEM` can report what it allocates. -/
def ShareMemSafe (arg : MemDesc) (env : IoctlEnv) : Prop :=
  ReadsNoAddress arg env ∧ (memDescSize ≤ env.readable → env.vmalloc ≠ 0 → env.notCopied = 0)

/-- `REQ_VSHARE_MEM` finds no address in the descriptor, or one that `vmalloc_user` returned for
this size, and can report what it allocates. -/
def VshareMemSafe (d : Driver) (arg : MemDesc) (env : IoctlEnv) : Prop :=
  ReadsNoAddress arg env ∧
    (memDescSize ≤ env.readable →
      Descends (copyFromUser arg env.readable) d.vmalloced ∧
        ((copyFromUser arg env.readable).cpuAddr ≠ 0 ∨ env.vmalloc ≠ 0 → env.notCopied = 0))

/-- `GET_WORK_ADDR` finds room in the pool, and can report what it allocates, or finds no address in
the descriptor. -/
def WorkAddrSafe (L : PoolLayout) (d : Driver) (arg : MemDesc) (env : IoctlEnv) : Prop :=
  ReadsNoAddress arg env ∧
    (memDescSize ≤ env.readable →
      if (vpuPoolAlloc L d.pool (copyFromUser arg env.readable).size).2 = 0 then
        (copyFromUser arg env.readable).cpuAddr = 0
      else env.notCopied = 0)

/-- What each call relies on while its descriptor is unset.  A work buffer that is set by the caller
has to come from the pool. -/
def HandlerSafe (L : PoolLayout) (d : Driver) : Call → Prop
  | .getShareMem arg env => d.shareMem.cpuAddr = 0 → ShareMemSafe arg env
  | .reqVshareMem arg env => d.vshareMem.cpuAddr = 0 → VshareMemSafe d arg env
  | .getWorkAddr arg env => d.bitworkMem.cpuAddr = 0 → WorkAddrSafe L d arg env
  | .setBitworkMem arg env => Descends (copyFromUser arg env.readable) d.pooled
  | _ => True

/-! ## One equivalence for each call -/

section Calls

variable {L : PoolLayout} {d d' : Driver}

theorem Descends.mono {m : MemDesc} {returned returned' : List (ℕ × ℕ)} (h : Descends m returned)
    (hsub : returned ⊆ returned') : Descends m returned' :=
  h.imp_right fun hmem => hsub hmem

/-- Calls that leave the lasting descriptors alone. -/
theorem Provenance.same (h : Provenance d) (hshare : d'.shareMem = d.shareMem)
    (hvshare : d'.vshareMem = d.vshareMem) (hbit : d'.bitworkMem = d.bitworkMem)
    (hv : d'.vmalloced = d.vmalloced) (hp : d.pooled ⊆ d'.pooled) : Provenance d' := by
  refine ⟨?_, ?_, ?_⟩
  · rw [hshare, hv]
    exact h.share
  · rw [hvshare, hv]
    exact h.vshare
  · rw [hbit]
    exact h.bitwork.mono hp

theorem Provenance.freeDmaBuffer (h : Provenance d) (mem : MemDesc) :
    Provenance (vpuFreeDmaBuffer L d mem) := by
  unfold vpuFreeDmaBuffer
  split
  · exact h.same rfl rfl rfl rfl (List.Subset.refl _)
  · exact h

theorem Provenance.freeBuffers (h : Provenance d) : Provenance (vpuFreeBuffers L d) := by
  have hfold : ∀ (mems : List MemDesc) (d₁ : Driver), Provenance d₁ →
      Provenance (mems.foldl (vpuFreeDmaBuffer L) d₁) := by
    intro mems
    induction mems with
    | nil => exact fun d₁ h₁ => h₁
    | cons mem mems ih => exact fun d₁ h₁ => ih _ (h₁.freeDmaBuffer mem)
  exact (hfold _ d h).same rfl rfl rfl rfl (List.Subset.refl _)

theorem Provenance.phymemAlloc (h : Provenance d) (arg : MemDesc) (env : IoctlEnv) :
    Provenance (phymemAlloc L d arg env).1 := by
  unfold Kernel.phymemAlloc
  split
  · exact h
  split
  · exact h
  rcases vpuAllocDmaBuffer_spec L d (copyFromUser arg env.readable) with
    hfail | ⟨pool, phys, heq, -⟩
  · rw [hfail]
    exact h
  · rw [heq]
    simp only
    split <;> exact h.same rfl rfl rfl rfl (List.subset_cons_self _ _)

theorem Provenance.release (h : Provenance d) : Provenance (vpuRelease L d) := by
  unfold vpuRelease
  split
  · simp only
    split
    · refine Provenance.freeBuffers ?_
      exact h.same rfl rfl rfl rfl (List.Subset.refl _)
    · exact h.same rfl rfl rfl rfl (List.Subset.refl _)
  · exact h

theorem keepsProvenance_getShareMem (h : Provenance d) (arg : MemDesc) (env : IoctlEnv) :
    KeepsProvenance L d (.getShareMem arg env) ↔ HandlerSafe L d (.getShareMem arg env) := by
  unfold KeepsProvenance FailsUnset HandlerSafe ShareMemSafe ReadsNoAddress
  simp only [Driver.step, Driver.call, getShareMem]
  by_cases hset : d.shareMem.cpuAddr = 0
  swap
  · simp [hset, h]
  by_cases hread : env.readable < memDescSize
  · have hle : ¬ memDescSize ≤ env.readable := not_le.mpr hread
    simp only [hset, hread, hle, ne_eq, not_true_eq_false, if_false, if_true]
    constructor
    · rintro ⟨-, hfail⟩ -
      exact ⟨fun _ => hfail (by decide) trivial, fun hcon => hcon.elim⟩
    · intro hsafe
      exact ⟨⟨.inl ((hsafe trivial).1 trivial), h.vshare, h.bitwork⟩,
        fun _ _ => (hsafe trivial).1 trivial⟩
  have hle : memDescSize ≤ env.readable := not_lt.mp hread
  by_cases hv : env.vmalloc = 0
  · simp only [hset, hread, hle, hv, ne_eq, not_true_eq_false, if_false, if_true]
    have hprov : Provenance { d with
        shareMem := { copyFromUser arg env.readable with cpuAddr := 0 } } :=
      ⟨.inl rfl, h.vshare, h.bitwork⟩
    simp [hprov]
  · have hprov : Provenance { d with
        shareMem := { copyFromUser arg env.readable with
          cpuAddr := env.vmalloc, phyAddr := env.vmalloc }
        vmalloced := (env.vmalloc, (copyFromUser arg env.readable).size) :: d.vmalloced } :=
      ⟨.inr List.mem_cons_self, h.vshare.mono (List.subset_cons_self _ _), h.bitwork⟩
    by_cases hto : env.notCopied = 0
    · simp only [hset, hread, hle, hv, hto, ne_eq, not_true_eq_false, not_false_eq_true, if_false]
      simp [hprov]
    · simp only [hset, hread, hle, hv, hto, ne_eq, not_true_eq_false, not_false_eq_true, if_false,
        if_true]
      simp

theorem keepsProvenance_reqVshareMem (h : Provenance d) (arg : MemDesc) (env : IoctlEnv) :
    KeepsProvenance L d (.reqVshareMem arg env) ↔ HandlerSafe L d (.reqVshareMem arg env) := by
  unfold KeepsProvenance FailsUnset HandlerSafe VshareMemSafe ReadsNoAddress
  simp only [Driver.step, Driver.call, reqVshareMem]
  by_cases hset : d.vshareMem.cpuAddr = 0
  swap
  · simp [hset, h]
  generalize copyFromUser arg env.readable = mem
  by_cases hread : env.readable < memDescSize
  · have hle : ¬ memDescSize ≤ env.readable := not_le.mpr hread
    simp only [hset, hread, hle, ne_eq, not_true_eq_false, if_false, if_true]
    constructor
    · rintro ⟨-, hfail⟩ -
      exact ⟨fun _ => hfail (by decide) trivial, fun hcon => hcon.elim⟩
    · intro hsafe
      exact ⟨⟨h.share, .inl ((hsafe trivial).1 trivial), h.bitwork⟩,
        fun _ _ => (hsafe trivial).1 trivial⟩
  have hle : memDescSize ≤ env.readable := not_lt.mp hread
  by_cases haddr : mem.cpuAddr = 0
  · by_cases hv : env.vmalloc = 0
    · -- nothing is allocated, and the call does not notice
      have hprov : Provenance { d with vshareMem := { mem with cpuAddr := 0 } } :=
        ⟨h.share, .inl rfl, h.bitwork⟩
      by_cases hto : env.notCopied = 0
      · simp [hset, hread, hle, haddr, hv, hto, hprov, Descends]
      · simp [hset, hread, hle, haddr, hv, hto, hprov, Descends]
    · have hprov : Provenance { d with
          vshareMem := { mem with cpuAddr := env.vmalloc }
          vmalloced := (env.vmalloc, mem.size) :: d.vmalloced } :=
        ⟨h.share.mono (List.subset_cons_self _ _), .inr List.mem_cons_self, h.bitwork⟩
      by_cases hto : env.notCopied = 0
      · simp [hset, hread, hle, haddr, hv, hto, hprov, Descends]
      · simp [hset, hread, hle, haddr, hv, hto, hprov, Descends]
  · have hprov : Provenance { d with vshareMem := mem } ↔ Descends mem d.vmalloced :=
      ⟨fun hp => hp.vshare, fun hd => ⟨h.share, hd, h.bitwork⟩⟩
    by_cases hto : env.notCopied = 0
    · simp [hset, hread, hle, haddr, hto, hprov]
    · simp [hset, hread, hle, haddr, hto, hprov]

theorem keepsProvenance_getWorkAddr (h : Provenance d) (arg : MemDesc) (env : IoctlEnv) :
    KeepsProvenance L d (.getWorkAddr arg env) ↔ HandlerSafe L d (.getWorkAddr arg env) := by
  unfold KeepsProvenance FailsUnset HandlerSafe WorkAddrSafe ReadsNoAddress
  simp only [Driver.step, Driver.call, getWorkAddr]
  by_cases hset : d.bitworkMem.cpuAddr = 0
  swap
  · simp [hset, h]
  generalize copyFromUser arg env.readable = mem
  by_cases hread : env.readable < memDescSize
  · have hle : ¬ memDescSize ≤ env.readable := not_le.mpr hread
    simp only [hset, hread, hle, ne_eq, not_true_eq_false, if_false, if_true]
    constructor
    · rintro ⟨-, hfail⟩ -
      exact ⟨fun _ => hfail (by decide) trivial, fun hcon => hcon.elim⟩
    · intro hsafe
      exact ⟨⟨h.share, h.vshare, .inl ((hsafe trivial).1 trivial)⟩,
        fun _ _ => (hsafe trivial).1 trivial⟩
  have hle : memDescSize ≤ env.readable := not_lt.mp hread
  unfold vpuAllocDmaBuffer
  simp only
  generalize vpuPoolAlloc L d.pool mem.size = result
  obtain ⟨pool, phys⟩ := result
  by_cases hphys : phys = 0
  · -- the caller's address stays where the allocation should have gone
    have hprov : Provenance { d with pool := pool, bitworkMem := mem } ↔ Descends mem d.pooled :=
      ⟨fun hp => hp.bitwork, fun hd => ⟨h.share, h.vshare, hd⟩⟩
    have hunset : Descends mem d.pooled ∧ mem.cpuAddr = 0 ↔ mem.cpuAddr = 0 :=
      ⟨fun hand => hand.2, fun hzero => ⟨.inl hzero, hzero⟩⟩
    simp [hset, hread, hle, hphys, hprov, hunset]
  · have hprov : Provenance { d with
        pool := pool
        pooled := (phys, mem.size) :: d.pooled
        bitworkMem := { mem with phyAddr := phys, cpuAddr := phys } } :=
      ⟨h.share, h.vshare, .inr List.mem_cons_self⟩
    by_cases hto : env.notCopied = 0
    · simp [hset, hread, hle, hphys, hto, hprov]
    · simp [hset, hread, hle, hphys, hto, hprov]

theorem keepsProvenance_iff (h : Provenance d) (a : Call) :
    KeepsProvenance L d a ↔ HandlerSafe L d a := by
  -- calls that fill no lasting descriptor cannot go wrong
  have hother : Provenance (d.step L a) → (FailsUnset L d a ↔ True) → (HandlerSafe L d a ↔ True) →
      (KeepsProvenance L d a ↔ HandlerSafe L d a) := by
    intro hp hf hs
    rw [hs, iff_true]
    exact ⟨hp, hf.mpr trivial⟩
  cases a with
  | openFile =>
    refine hother ?_ (by simp [FailsUnset]) (by simp [HandlerSafe])
    exact h.same rfl rfl rfl rfl (List.Subset.refl _)
  | releaseFile => exact hother h.release (by simp [FailsUnset]) (by simp [HandlerSafe])
  | phymemAlloc arg env =>
    exact hother (h.phymemAlloc arg env) (by simp [FailsUnset]) (by simp [HandlerSafe])
  | phymemFree arg env =>
    refine hother ?_ (by simp [FailsUnset]) (by simp [HandlerSafe])
    rw [step_phymemFree]
    unfold Driver.afterFree
    simp only
    split_ifs
    · exact h
    · refine (h.freeDmaBuffer (L := L) (copyFromUser arg env.readable)).same ?_ ?_ ?_ ?_ ?_
      · rfl
      · rfl
      · rfl
      · rfl
      · exact List.Subset.refl _
    · exact h.same rfl rfl rfl rfl (List.Subset.refl _)
  | setBitworkMem arg env =>
    constructor
    · rintro ⟨hp, -⟩
      exact hp.bitwork
    · intro hs
      exact ⟨⟨h.share, h.vshare, hs⟩, fun _ => trivial⟩
  | getShareMem arg env => exact keepsProvenance_getShareMem h arg env
  | reqVshareMem arg env => exact keepsProvenance_reqVshareMem h arg env
  | getWorkAddr arg env => exact keepsProvenance_getWorkAddr h arg env

end Calls

/-! ## Runs -/

/-- **Provenance of the lasting descriptors.** In every run of calls, each call leaves the three
descriptors unset or with an address of the kernel's own, and sets none when it fails, exactly when
each call is given what its handler relies on. -/
theorem lasting_descriptors_come_from_kernel (L : PoolLayout) (calls : List Call) :
    Along (Driver.step L) Driver.init calls (KeepsProvenance L) ↔
      Along (Driver.step L) Driver.init calls (HandlerSafe L) := by
  have hinit : Provenance Driver.init := ⟨.inl rfl, .inl rfl, .inl rfl⟩
  apply along_iff_along hinit
  · intro d a h hok
    exact ((keepsProvenance_iff h a).mpr hok).1
  · intro d a h
    exact keepsProvenance_iff h a

/-- A caller asks for shared memory and leaves an address in the descriptor. -/
def vshareWithAddress : List Call := [.reqVshareMem ⟨4096, 0, 3221225472, 0⟩ calm]

/-- The address becomes the kernel's. -/
theorem vshare_mem_keeps_callers_address :
    ¬ Along (Driver.step oneBlock) Driver.init vshareWithAddress (KeepsProvenance oneBlock) := by
  intro hrun
  have hvshare := (hrun 0 _ rfl).1.vshare
  unfold Descends at hvshare
  revert hvshare
  decide +kernel

end Kernel
end ToonVpu
