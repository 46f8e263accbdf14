import ToonVpu.Kernel.Confinement

/-!
# Io — processes that get their DMA buffers through the library (`lib/vpu_io.c`)

`IOSystemInit` opens the device, gets the work buffer, which the driver keeps for all processes, and
allocates a code and a parameter buffer.  The application allocates and frees further buffers.  The
records of a buffer live in the driver until it is freed or the last file is closed.

The results are about runs of any number of processes: which buffers the driver believes to be in
use, and when two of them can share a page.  Copies between the driver and the library's own
variables do not fail; allocations, mappings and locks do as the environment says.
-/

namespace ToonVpu
namespace Lib

open Foundation
open Foundation.Ownership
open Foundation.Runs
open Kernel

/-! ## Processes -/

/-- `WORK_BUF_SIZE`, `CODE_BUF_SIZE` and `PARA_BUF2_SIZE + PARA_BUF_SIZE` of the i.MX27. -/
def workBufSize : ℕ := 131072

def codeBufSize : ℕ := 65536

def paraBufSize : ℕ := 11968

/-- The library's variables in one process, and the descriptors of the application by name. -/
structure Process where
  vpuFd : ℤ := -1
  /-- The number of files on the device that the process has open. -/
  files : ℕ := 0
  vpuActiveNum : ℕ := 0
  bitWorkAddr : MemDesc := {}
  codeBuf : MemDesc := {}
  paraBuf : MemDesc := {}
  bufs : ℕ → MemDesc := fun _ => {}

/-- What `IOSystemInit` meets.  A virtual address is what the `mmap` of a buffer returned, as an
unsigned number, and `0` for `MAP_FAILED`. -/
structure InitEnv where
  systemRev : Bool
  /-- `open`. -/
  fd : Option ℕ
  semaphoreOpen : Bool
  mutex : Bool
  mapRegs : Bool
  workVirt : ℕ
  codeAlloc : Bool
  codeVirt : ℕ
  paraAlloc : Bool
  paraVirt : ℕ
  shutdownMutex : Bool
  deriving DecidableEq, Repr

/-- How `IOSystemInit` ended: with success, because it was done before, before it got to the buffers,
or at one of its labels. -/
inductive InitExit
  | done
  | already
  | early
  | err
  | err2
  | err3
  deriving DecidableEq, Repr

/-- A call whose copies succeed. -/
def copies (kzalloc : Bool) : IoctlEnv := ⟨kzalloc, memDescSize, 0, 0⟩

/-! ## Library calls -/

section Calls

variable (L : PoolLayout)

/-- `_IOGetPhyMem`; without an open file the call fails. -/
def ioGetPhyMemOf (call : Driver → MemDesc → IoctlEnv → Driver × MemDesc × ℤ) (vpuFd : ℤ)
    (d : Driver) (buff : MemDesc) (kzalloc : Bool) : Driver × MemDesc × Bool :=
  if vpuFd < 0 then
    (d, { buff with phyAddr := 0, cpuAddr := 0 }, false)
  else
    match call d buff (copies kzalloc) with
    | (d, got, ret) =>
      if ret < 0 then (d, { buff with phyAddr := 0, cpuAddr := 0 }, false) else (d, got, true)

/-- `IOGetVirtMem`, whose result is an `int`. -/
def ioGetVirtMem (buff : MemDesc) (virt : ℕ) : MemDesc × Bool :=
  ({ buff with virtUaddr := virt }, decide (0 < virt ∧ virt < 2147483648))

/-- `IOFreePhyMem`. -/
def ioFreePhyMem (vpuFd : ℤ) (d : Driver) (buff : MemDesc) : Driver × MemDesc :=
  if buff.phyAddr ≠ 0 ∧ 0 ≤ vpuFd then
    ((phymemFree L d buff (copies true)).1, {})
  else
    (d, {})

/-- `close(vpu_fd)`. -/
def closeFd (d : Driver) (p : Process) : Driver × Process :=
  (vpuRelease L d, { p with vpuFd := -1, files := p.files - 1 })

def freeVirt (buff : MemDesc) : MemDesc := { buff with virtUaddr := 0 }

/-- `IOSystemShutdown`; the buffers are left to the driver. -/
def ioSystemShutdown (d : Driver) (p : Process) (mutex : Bool) : Driver × Process :=
  if p.vpuFd = -1 then
    (d, p)
  else if 1 < p.vpuActiveNum then
    -- Another instance of the process is still open.
    (d, { p with vpuActiveNum := p.vpuActiveNum - 1 })
  else if p.vpuActiveNum = 0 then
    (d, p)
  else if mutex = false then
    (d, p)
  else
    let p :=
      { p with
        bitWorkAddr := freeVirt p.bitWorkAddr
        codeBuf := freeVirt p.codeBuf
        paraBuf := freeVirt p.paraBuf
        vpuActiveNum := p.vpuActiveNum - 1 }
    if 0 ≤ p.vpuFd then closeFd L d p else (d, p)

/-- The label `err2`. -/
def initErr2 (d : Driver) (p : Process) (mutex : Bool) : Driver × Process :=
  let (d, work) := ioFreePhyMem L p.vpuFd d (freeVirt p.bitWorkAddr)
  ioSystemShutdown L d { p with bitWorkAddr := work } mutex

/-- The label `err3`. -/
def initErr3 (d : Driver) (p : Process) (mutex : Bool) : Driver × Process :=
  let (d, code) := ioFreePhyMem L p.vpuFd d (freeVirt p.codeBuf)
  initErr2 L d { p with codeBuf := code } mutex

/-- The parameter buffer. -/
def initPara (d : Driver) (p : Process) (env : InitEnv) : Driver × Process × InitExit :=
  let (d, para, got) := ioGetPhyMemOf (phymemAlloc L) p.vpuFd d
    { p.paraBuf with size := paraBufSize } env.paraAlloc
  let (para, mapped) := if got then ioGetVirtMem para env.paraVirt else (para, false)
  let p := { p with paraBuf := para }
  if mapped then
    (d, p, .done)
  else
    let (d, p) := initErr3 L d p env.shutdownMutex
    (d, p, .err3)

/-- The code buffer and what follows. -/
def initCode (d : Driver) (p : Process) (env : InitEnv) : Driver × Process × InitExit :=
  let (d, code, got) := ioGetPhyMemOf (phymemAlloc L) p.vpuFd d
    { p.codeBuf with size := codeBufSize } env.codeAlloc
  let (code, mapped) := if got then ioGetVirtMem code env.codeVirt else (code, false)
  let p := { p with codeBuf := code }
  if mapped then
    initPara L d p env
  else
    let (d, p) := initErr2 L d p env.shutdownMutex
    (d, p, .err2)

/-- The work buffer and what follows. -/
def initWork (d : Driver) (p : Process) (env : InitEnv) : Driver × Process × InitExit :=
  let (d, work, got) := ioGetPhyMemOf (getWorkAddr L) p.vpuFd d
    { p.bitWorkAddr with size := workBufSize } true
  let (work, mapped) := if got then ioGetVirtMem work env.workVirt else (work, false)
  let p := { p with bitWorkAddr := work }
  if mapped then
    initCode L d p env
  else
    let (d, p) := ioSystemShutdown L d p env.shutdownMutex
    (d, p, .err)

/-- `IOSystemInit`. -/
def ioSystemInit (d : Driver) (p : Process) (env : InitEnv) : Driver × Process × InitExit :=
  if 0 < p.vpuFd then
    -- The device is open already.
    (d, { p with vpuActiveNum := p.vpuActiveNum + 1 }, .already)
  else if env.systemRev = false then
    (d, p, .early)
  else
    match env.fd with
    | none => (d, { p with vpuFd := -1 }, .early)
    | some fd =>
      let d := vpuOpen d
      let p := { p with vpuFd := fd, files := p.files + 1 }
      if env.semaphoreOpen = true ∧ env.mutex = true ∧ env.mapRegs = true then
        initWork L d { p with vpuActiveNum := p.vpuActiveNum + 1 } env
      else
        let (d, p) := closeFd L d p
        (d, p, .early)

/-! ## Runs -/

structure Machine where
  driver : Driver
  procs : ℕ → Option Process

def Machine.init : Machine := ⟨Driver.init, fun _ => none⟩

inductive IoStep
  | start (pid : ℕ)
  | systemInit (pid : ℕ) (env : InitEnv)
  | getPhyMem (pid name size : ℕ) (kzalloc : Bool)
  | freePhyMem (pid name : ℕ)
  | systemShutdown (pid : ℕ) (mutex : Bool)
  | death (pid : ℕ)

def Machine.set (m : Machine) (pid : ℕ) (d : Driver) (p : Option Process) : Machine :=
  ⟨d, fun i => if i = pid then p else m.procs i⟩

def Process.setBuf (p : Process) (name : ℕ) (buff : MemDesc) : Process :=
  { p with bufs := fun i => if i = name then buff else p.bufs i }

/-- A step of the process `p`, with number `pid`. -/
def Machine.stepOf (m : Machine) (pid : ℕ) (p : Process) : IoStep → Machine
  | .systemInit _ env =>
    let (d, p, _) := ioSystemInit L m.driver p env
    m.set pid d (some p)
  | .getPhyMem _ name size kzalloc =>
    let (d, buff, _) := ioGetPhyMemOf (phymemAlloc L) p.vpuFd m.driver
      { p.bufs name with size := size } kzalloc
    m.set pid d (some (p.setBuf name buff))
  | .freePhyMem _ name =>
    let (d, buff) := ioFreePhyMem L p.vpuFd m.driver (p.bufs name)
    m.set pid d (some (p.setBuf name buff))
  | .systemShutdown _ mutex =>
    let (d, p) := ioSystemShutdown L m.driver p mutex
    m.set pid d (some p)
  | .death _ =>
    -- the kernel closes every file of the process
    m.set pid ((List.range p.files).foldl (fun d _ => vpuRelease L d) m.driver) none
  | .start _ => m

def IoStep.pid : IoStep → ℕ
  | .start pid | .systemInit pid _ | .getPhyMem pid _ _ _ | .freePhyMem pid _
  | .systemShutdown pid _ | .death pid => pid

/-- A step of the machine; only a process that runs can take one. -/
def Machine.step (m : Machine) (a : IoStep) : Machine :=
  match m.procs a.pid, a with
  | none, .start pid => m.set pid m.driver (some {})
  | none, _ => m
  | some p, a => m.stepOf L a.pid p a

end Calls

/-! ## Live buffers -/

/-- The work buffer, where it is set, and the buffers that have a record. -/
def liveMem (d : Driver) : List MemDesc :=
  (if d.bitworkMem.cpuAddr ≠ 0 then [d.bitworkMem] else []) ++ d.head

/-- The live buffers lie each in one block, in pages that are marked and that no two of them share. -/
structure OwnershipOk (L : PoolLayout) (d : Driver) : Prop where
  inside : ∀ m ∈ liveMem d, L.Inside m.phyAddr m.size
  separated : Separated d.pool.used ((liveMem d).map (MemDesc.region L))

/-- A descriptor of 32-bit words, filled by the pool. -/
structure FilledByPool (L : PoolLayout) (m : MemDesc) : Prop where
  placed : m.Placed L
  size_lt : m.size < 4294967296
  phy_lt : m.phyAddr < 4294967296

/-- What the driver's state is like between calls. -/
structure LiveInv (L : PoolLayout) (d : Driver) : Prop where
  records : ∀ m ∈ d.head, m.Placed L
  bitwork : d.bitworkMem.cpuAddr ≠ 0 → FilledByPool L d.bitworkMem
  separated : Separated d.pool.used ((liveMem d).map (MemDesc.region L))

/-- The live buffers without the record that a free call of `mem` deletes. -/
def otherLive (d : Driver) (mem : MemDesc) : List MemDesc :=
  (if d.bitworkMem.cpuAddr ≠ 0 then [d.bitworkMem] else []) ++
    d.head.eraseP fun rec => rec.cpuAddr = mem.cpuAddr

/-- The pages that a free call clears belong to no buffer that stays live. -/
def FreesUnowned (L : PoolLayout) (d : Driver) (mem : MemDesc) : Prop :=
  mem.cpuAddr ≠ 0 → ∀ m ∈ otherLive d mem, Disjoint (m.region L) (mem.region L)

/-- The work buffer has lost a page. -/
def BitworkLost (L : PoolLayout) (d : Driver) : Prop :=
  d.bitworkMem.cpuAddr ≠ 0 ∧ ¬ d.bitworkMem.region L ⊆ d.pool.used

section Driver

variable {L : PoolLayout} {d d' : Driver} {mem : MemDesc}

theorem mem_liveMem_bitwork (h : d.bitworkMem.cpuAddr ≠ 0) : d.bitworkMem ∈ liveMem d := by
  simp [liveMem, h]

theorem LiveInv.ownershipOk (h : LiveInv L d) : OwnershipOk L d := by
  refine ⟨?_, h.separated⟩
  intro m hm
  rcases List.mem_append.mp hm with hbit | hrec
  · split at hbit
    · rename_i hset
      rw [List.mem_singleton.mp hbit]
      exact (h.bitwork hset).placed.inside
    · cases hbit
  · exact (h.records m hrec).inside

theorem BitworkLost.not_ownershipOk (h : BitworkLost L d) : ¬ OwnershipOk L d := by
  intro hok
  exact h.2 (hok.separated.used _ (List.mem_map_of_mem (mem_liveMem_bitwork h.1)))

/-- A placed buffer has a page. -/
theorem region_nonempty (h : mem.Placed L) : (mem.region L).Nonempty := by
  obtain ⟨-, hpos, i, hblock, -⟩ := h.inside
  refine ⟨(i, L.pageIn i mem.phyAddr), hblock, Nat.le_refl _, ?_⟩
  simp only
  omega

/-- Marking pages and changing nothing else. -/
theorem LiveInv.leak (h : LiveInv L d) {r : Set Page} (hhead : d'.head = d.head)
    (hbit : d'.bitworkMem = d.bitworkMem) (hused : d'.pool.used = d.pool.used ∪ r) :
    LiveInv L d' := by
  refine ⟨by rw [hhead]; exact h.records, by rw [hbit]; exact h.bitwork, ?_⟩
  unfold liveMem
  rw [hhead, hbit, hused]
  exact h.separated.leak r

theorem LiveInv.same (h : LiveInv L d) (hhead : d'.head = d.head)
    (hbit : d'.bitworkMem = d.bitworkMem) (hpool : d'.pool = d.pool) : LiveInv L d' := by
  refine ⟨by rw [hhead]; exact h.records, by rw [hbit]; exact h.bitwork, ?_⟩
  unfold liveMem
  rw [hhead, hbit, hpool]
  exact h.separated

theorem LiveInv.phymemAlloc (h : LiveInv L d) (arg : MemDesc) (env : IoctlEnv) :
    LiveInv L (phymemAlloc L d arg env).1 ∧
      (phymemAlloc L d arg env).1.bitworkMem = d.bitworkMem := by
  unfold Kernel.phymemAlloc
  split
  · exact ⟨h, rfl⟩
  split
  · exact ⟨h, rfl⟩
  rcases vpuAllocDmaBuffer_spec L d (copyFromUser arg env.readable) with
    hfail | ⟨pool, phys, heq, hplaced, -, hfresh, hused, -⟩
  · rw [hfail]
    exact ⟨h, rfl⟩
  rw [heq]
  simp only
  split
  · exact ⟨h.leak rfl rfl hused, rfl⟩
  · refine ⟨⟨?_, h.bitwork, ?_⟩, rfl⟩
    · intro m hm
      rcases List.mem_cons.mp hm with rfl | hm
      · exact hplaced
      · exact h.records m hm
    · -- the new record stands behind the work buffer
      have hnew := h.separated.handOut hfresh
      rw [← hused] at hnew
      refine hnew.perm ?_
      simp only [liveMem, List.map_append, List.map_cons]
      exact List.perm_middle.symm

/-- Freeing the records one by one leaves the other regions used. -/
theorem freeAll_separated (mems : List MemDesc) {rest : List (Set Page)}
    (h : Separated d.pool.used (rest ++ mems.map (MemDesc.region L))) :
    Separated (mems.foldl (vpuFreeDmaBuffer L) d).pool.used rest := by
  induction mems generalizing d with
  | nil => simpa using h
  | cons m mems ih =>
    apply ih
    rw [vpuFreeDmaBuffer_used]
    rw [List.map_cons] at h
    refine h.takeBack ?_ h.apart
    exact List.Sublist.append_left (List.sublist_cons_self _ _) _

theorem foldl_free_bitworkMem (mems : List MemDesc) (d : Driver) :
    (mems.foldl (vpuFreeDmaBuffer L) d).bitworkMem = d.bitworkMem := by
  induction mems generalizing d with
  | nil => rfl
  | cons m mems ih =>
    rw [List.foldl_cons, ih]
    unfold vpuFreeDmaBuffer
    split <;> rfl

theorem LiveInv.freeBuffers (h : LiveInv L d) : LiveInv L (vpuFreeBuffers L d) := by
  have hall : d.head.filter (fun mem => mem.cpuAddr ≠ 0) = d.head := by
    rw [List.filter_eq_self]
    intro m hm
    simpa using (h.records m hm).cpu_ne
  have hnone : d.head.filter (fun mem => mem.cpuAddr = 0) = [] := by
    rw [List.filter_eq_nil_iff]
    intro m hm
    simpa using (h.records m hm).cpu_ne
  have hbit := foldl_free_bitworkMem (L := L) d.head d
  unfold vpuFreeBuffers
  rw [hall, hnone]
  refine ⟨fun m hm => absurd hm List.not_mem_nil, ?_, ?_⟩
  · intro hset
    simp only [hbit] at hset ⊢
    exact h.bitwork hset
  · have hsep := h.separated
    simp only [liveMem, List.map_append] at hsep
    simpa [liveMem, hbit] using freeAll_separated d.head hsep

theorem LiveInv.release (h : LiveInv L d) : LiveInv L (vpuRelease L d) := by
  unfold vpuRelease
  split
  · simp only
    split
    · refine LiveInv.freeBuffers ?_
      exact h.same rfl rfl rfl
    · exact h.same rfl rfl rfl
  · exact h

@[simp] theorem release_bitworkMem (L : PoolLayout) (d : Driver) :
    (vpuRelease L d).bitworkMem = d.bitworkMem := by
  unfold vpuRelease
  split
  · simp only
    split
    · exact foldl_free_bitworkMem _ _
    · rfl
  · rfl

/-- The last close unmarks pages and marks none. -/
theorem release_used_subset (L : PoolLayout) (d : Driver) :
    (vpuRelease L d).pool.used ⊆ d.pool.used := by
  have hfold : ∀ (mems : List MemDesc) (d₁ : Driver),
      (mems.foldl (vpuFreeDmaBuffer L) d₁).pool.used ⊆ d₁.pool.used := by
    intro mems
    induction mems with
    | nil => exact fun d₁ => Set.Subset.rfl
    | cons m mems ih =>
      intro d₁
      refine (ih _).trans ?_
      rw [vpuFreeDmaBuffer_used]
      exact Set.sdiff_subset
  unfold vpuRelease
  split
  · simp only
    split
    · exact hfold _ _
    · exact Set.Subset.rfl
  · exact Set.Subset.rfl

theorem BitworkLost.release (h : BitworkLost L d) : BitworkLost L (vpuRelease L d) := by
  refine ⟨?_, ?_⟩
  · rw [release_bitworkMem]
    exact h.1
  · rw [release_bitworkMem]
    exact fun hsub => h.2 (hsub.trans (release_used_subset L d))

@[simp] theorem afterFree_bitworkMem (L : PoolLayout) (d : Driver) (mem : MemDesc) :
    (d.afterFree L mem).bitworkMem = d.bitworkMem := by
  unfold Driver.afterFree vpuFreeDmaBuffer
  simp only
  split_ifs <;> rfl

theorem liveMem_afterFree (L : PoolLayout) (d : Driver) (mem : MemDesc) :
    liveMem (d.afterFree L mem) = otherLive d mem := by
  unfold liveMem otherLive
  rw [afterFree_bitworkMem, afterFree_head]

/-- A free call leaves the live buffers in order exactly when it clears no page of one that stays. -/
theorem afterFree_ownershipOk_iff (h : LiveInv L d) :
    OwnershipOk L (d.afterFree L mem) ↔ FreesUnowned L d mem := by
  have hsub : (liveMem (d.afterFree L mem)).Sublist (liveMem d) := by
    rw [liveMem_afterFree]
    exact List.Sublist.append_left List.eraseP_sublist _
  constructor
  · intro hok hne m hm
    have hsep := hok.separated
    rw [afterFree_used hne] at hsep
    rw [← liveMem_afterFree L] at hm
    exact hsep.stays _ (List.mem_map_of_mem hm)
  · intro hfree
    refine ⟨fun m hm => h.ownershipOk.inside m (hsub.subset hm), ?_⟩
    by_cases hne : mem.cpuAddr = 0
    · have hused : (d.afterFree L mem).pool.used = d.pool.used := by
        simp [Driver.afterFree, hne]
      rw [hused]
      exact ⟨fun r hr => h.separated.used r ((hsub.map _).subset hr),
        h.separated.disjoint.sublist (hsub.map _)⟩
    · rw [afterFree_used hne]
      refine h.separated.takeBack (hsub.map _) ?_
      intro r hr
      obtain ⟨m, hm, rfl⟩ := List.mem_map.mp hr
      rw [liveMem_afterFree] at hm
      exact hfree hne m hm

theorem LiveInv.afterFree (h : LiveInv L d) (hok : OwnershipOk L (d.afterFree L mem)) :
    LiveInv L (d.afterFree L mem) := by
  refine ⟨?_, by rw [afterFree_bitworkMem]; exact h.bitwork, hok.separated⟩
  intro m hm
  rw [afterFree_head] at hm
  exact h.records m (List.mem_of_mem_eraseP hm)

/-- A word below `2^32` is copied as it is. -/
theorem copiedWord_of_lt {word off : ℕ} (h : word < 4294967296) (hoff : off ≤ 12) :
    copiedWord word off memDescSize = word := by
  have hmin : min 4 (memDescSize - off) = 4 := by
    unfold memDescSize
    omega
  rw [copiedWord, hmin]
  exact Nat.mod_eq_of_lt h

/-- `GET_WORK_ADDR` with a descriptor that has no address, or for a work buffer that is set. -/
theorem LiveInv.getWork (h : LiveInv L d) (arg : MemDesc)
    (harg : arg.cpuAddr ≠ 0 → d.bitworkMem.cpuAddr ≠ 0) :
    LiveInv L (getWorkAddr L d arg (copies true)).1 ∧
      (d.bitworkMem.cpuAddr ≠ 0 →
        (getWorkAddr L d arg (copies true)).1.bitworkMem.cpuAddr ≠ 0) ∧
      (¬ (getWorkAddr L d arg (copies true)).2.2 < 0 →
        (getWorkAddr L d arg (copies true)).1.bitworkMem.cpuAddr ≠ 0 ∧
          (getWorkAddr L d arg (copies true)).2.1 =
            (getWorkAddr L d arg (copies true)).1.bitworkMem) := by
  unfold getWorkAddr
  -- A work buffer that is set is only copied out.
  split
  · rename_i hset
    exact ⟨h, fun _ => hset, fun _ => ⟨hset, rfl⟩⟩
  rename_i hunset
  have hread : ¬ (copies true).readable < memDescSize := by decide
  simp only [hread, if_false]
  have hzero : (copyFromUser arg (copies true).readable).cpuAddr = 0 := by
    have hcpu : arg.cpuAddr = 0 := by
      by_contra hne
      exact hunset (harg hne)
    simp [copyFromUser, copiedWord, hcpu]
  generalize hmem : copyFromUser arg (copies true).readable = mem at hzero ⊢
  have hkeep : LiveInv L { d with bitworkMem := mem } := by
    refine ⟨h.records, fun hne => absurd hzero hne, ?_⟩
    have hsep := h.separated
    simp only [liveMem, hunset, if_false, List.nil_append] at hsep
    simpa [liveMem, hzero] using hsep
  rcases vpuAllocDmaBuffer_spec L { d with bitworkMem := mem } mem with
    hfail | ⟨pool, phys, heq, hplaced, hlt, hfresh, hused, -⟩
  · rw [hfail]
    refine ⟨hkeep, fun hset => absurd hset hunset, ?_⟩
    intro hret
    simp at hret
  · rw [heq]
    have hout : ¬ (copies true).notCopied ≠ 0 := by decide
    simp only [hout, if_false]
    refine ⟨⟨h.records, fun _ => ⟨hplaced, ?_, hlt⟩, ?_⟩, fun _ => hplaced.cpu_ne,
      fun _ => ⟨hplaced.cpu_ne, trivial⟩⟩
    · rw [← hmem]
      exact Nat.mod_lt _ (by decide)
    · -- the work buffer comes before the records
      have hnew := hkeep.separated
      simp only [liveMem, hzero, ne_eq, not_true_eq_false, if_false, List.nil_append] at hnew
      have hall := hnew.handOut hfresh
      rw [← hused] at hall
      have hne : phys ≠ 0 := hplaced.cpu_ne
      simpa [liveMem, hne, MemDesc.region] using hall

/-- Freeing the work buffer through its own descriptor takes its pages from it. -/
theorem bitworkLost_of_free (h : FilledByPool L d.bitworkMem)
    (hphy : mem.phyAddr = d.bitworkMem.phyAddr) (hcpu : mem.cpuAddr = d.bitworkMem.cpuAddr)
    (hsize : mem.size = d.bitworkMem.size) :
    BitworkLost L (phymemFree L d mem (copies true)).1 := by
  have hcpu_lt : d.bitworkMem.cpuAddr < 4294967296 := by
    rw [h.placed.cpu_eq]
    exact h.phy_lt
  have hne : (copyFromUser mem memDescSize).cpuAddr ≠ 0 := by
    simp only [copyFromUser]
    rw [hcpu, copiedWord_of_lt hcpu_lt (by decide)]
    exact h.placed.cpu_ne
  have hregion : (copyFromUser mem memDescSize).region L = d.bitworkMem.region L := by
    simp only [MemDesc.region, copyFromUser]
    rw [hphy, hsize, copiedWord_of_lt h.size_lt (by decide), copiedWord_of_lt h.phy_lt (by decide)]
  have hfree : (phymemFree L d mem (copies true)).1 =
      d.afterFree L (copyFromUser mem memDescSize) := rfl
  rw [hfree]
  refine ⟨?_, ?_⟩
  · rw [afterFree_bitworkMem]
    exact h.placed.cpu_ne
  · rw [afterFree_bitworkMem, afterFree_used hne, hregion]
    obtain ⟨page, hpage⟩ := region_nonempty h.placed
    exact fun hsub => (hsub hpage).2 hpage

end Driver

/-! ## The library's calls -/

section Library

variable {L : PoolLayout} {d : Driver} {p : Process}

theorem LiveInv.vpuOpen (h : LiveInv L d) : LiveInv L (vpuOpen d) := h.same rfl rfl rfl

theorem LiveInv.ioGetPhyMem (h : LiveInv L d) (vpuFd : ℤ) (buff : MemDesc) (kzalloc : Bool) :
    LiveInv L (ioGetPhyMemOf (Kernel.phymemAlloc L) vpuFd d buff kzalloc).1 ∧
      (ioGetPhyMemOf (Kernel.phymemAlloc L) vpuFd d buff kzalloc).1.bitworkMem = d.bitworkMem := by
  unfold ioGetPhyMemOf
  split
  · exact ⟨h, rfl⟩
  have halloc := h.phymemAlloc buff (copies kzalloc)
  generalize Kernel.phymemAlloc L d buff (copies kzalloc) = got at halloc ⊢
  obtain ⟨d₁, mem, ret⟩ := got
  simp only at halloc ⊢
  split <;> exact halloc

/-- Shutting down closes the file or leaves the driver alone. -/
theorem ioSystemShutdown_driver (L : PoolLayout) (d : Driver) (p : Process) (mutex : Bool) :
    (ioSystemShutdown L d p mutex).1 = d ∨ (ioSystemShutdown L d p mutex).1 = vpuRelease L d := by
  unfold ioSystemShutdown closeFd
  simp only
  split_ifs <;> simp

theorem ioSystemShutdown_bitWorkAddr (L : PoolLayout) (d : Driver) (p : Process) (mutex : Bool) :
    (ioSystemShutdown L d p mutex).2.bitWorkAddr.cpuAddr = p.bitWorkAddr.cpuAddr := by
  unfold ioSystemShutdown closeFd freeVirt
  simp only
  split_ifs <;> rfl

theorem LiveInv.shutdown (h : LiveInv L d) (p : Process) (mutex : Bool) :
    LiveInv L (ioSystemShutdown L d p mutex).1 ∧
      (ioSystemShutdown L d p mutex).1.bitworkMem = d.bitworkMem := by
  rcases ioSystemShutdown_driver L d p mutex with hsame | hclosed
  · rw [hsame]
    exact ⟨h, rfl⟩
  · rw [hclosed]
    exact ⟨h.release, release_bitworkMem L d⟩

theorem BitworkLost.shutdown (h : BitworkLost L d) (p : Process) (mutex : Bool) :
    BitworkLost L (ioSystemShutdown L d p mutex).1 := by
  rcases ioSystemShutdown_driver L d p mutex with hsame | hclosed
  · rw [hsame]
    exact h
  · rw [hclosed]
    exact h.release

/-- The process holds the driver's work buffer and has its file open. -/
structure HoldsWork (L : PoolLayout) (d : Driver) (p : Process) : Prop where
  filled : FilledByPool L d.bitworkMem
  fd : 0 ≤ p.vpuFd
  phyAddr : p.bitWorkAddr.phyAddr = d.bitworkMem.phyAddr
  cpuAddr : p.bitWorkAddr.cpuAddr = d.bitworkMem.cpuAddr
  size : p.bitWorkAddr.size = d.bitworkMem.size

theorem HoldsWork.of_same {d' : Driver} {p' : Process} (h : HoldsWork L d p)
    (hbit : d'.bitworkMem = d.bitworkMem) (hfd : p'.vpuFd = p.vpuFd)
    (hwork : p'.bitWorkAddr = p.bitWorkAddr) : HoldsWork L d' p' := by
  refine ⟨?_, ?_, ?_, ?_, ?_⟩
  · rw [hbit]
    exact h.filled
  · rw [hfd]
    exact h.fd
  · rw [hbit, hwork]
    exact h.phyAddr
  · rw [hbit, hwork]
    exact h.cpuAddr
  · rw [hbit, hwork]
    exact h.size

/-- `err2` frees the work buffer, which the driver goes on to hand out. -/
theorem HoldsWork.err2 (h : HoldsWork L d p) (mutex : Bool) :
    BitworkLost L (initErr2 L d p mutex).1 := by
  have hphy : (freeVirt p.bitWorkAddr).phyAddr ≠ 0 ∧ 0 ≤ p.vpuFd := by
    refine ⟨?_, h.fd⟩
    have hne : d.bitworkMem.phyAddr ≠ 0 := by
      rw [← h.filled.placed.cpu_eq]
      exact h.filled.placed.cpu_ne
    simpa [freeVirt, h.phyAddr] using hne
  unfold initErr2 ioFreePhyMem
  rw [if_pos hphy]
  refine BitworkLost.shutdown ?_ _ _
  exact bitworkLost_of_free h.filled h.phyAddr h.cpuAddr h.size

theorem HoldsWork.err3 (h : HoldsWork L d p) (mutex : Bool) :
    BitworkLost L (initErr3 L d p mutex).1 := by
  have hbit : (ioFreePhyMem L p.vpuFd d (freeVirt p.codeBuf)).1.bitworkMem = d.bitworkMem := by
    unfold ioFreePhyMem
    split
    · exact afterFree_bitworkMem L d _
    · rfl
  unfold initErr3
  generalize ioFreePhyMem L p.vpuFd d (freeVirt p.codeBuf) = freed at hbit ⊢
  obtain ⟨d₁, code⟩ := freed
  have hstill : HoldsWork L d₁ { p with codeBuf := code } := h.of_same hbit rfl rfl
  exact hstill.err2 mutex

/-- What is left behind by an initialization: through `err2` and `err3` a work buffer without its
pages, otherwise buffers in order. -/
structure InitResult (L : PoolLayout) (d : Driver) (r : Driver × Process × InitExit) : Prop where
  lost : r.2.2 = .err2 ∨ r.2.2 = .err3 → BitworkLost L r.1
  live : ¬ (r.2.2 = .err2 ∨ r.2.2 = .err3) → LiveInv L r.1
  kept : ¬ (r.2.2 = .err2 ∨ r.2.2 = .err3) → d.bitworkMem.cpuAddr ≠ 0 → r.1.bitworkMem.cpuAddr ≠ 0
  known : ¬ (r.2.2 = .err2 ∨ r.2.2 = .err3) → r.2.1.bitWorkAddr.cpuAddr ≠ 0 →
    r.1.bitworkMem.cpuAddr ≠ 0

/-- An end that keeps the buffers in order. -/
theorem InitResult.of_live {d' : Driver} {p' : Process} {e : InitExit} (h : LiveInv L d')
    (hkept : d.bitworkMem.cpuAddr ≠ 0 → d'.bitworkMem.cpuAddr ≠ 0)
    (hknown : p'.bitWorkAddr.cpuAddr ≠ 0 → d'.bitworkMem.cpuAddr ≠ 0)
    (he : ¬ (e = .err2 ∨ e = .err3)) : InitResult L d (d', p', e) :=
  ⟨fun hlost => absurd hlost he, fun _ => h, fun _ => hkept, fun _ => hknown⟩

theorem InitResult.of_lost {d' : Driver} {p' : Process} {e : InitExit} (h : BitworkLost L d')
    (he : e = .err2 ∨ e = .err3) : InitResult L d (d', p', e) :=
  ⟨fun _ => h, fun hne => absurd he hne, fun hne => absurd he hne, fun hne => absurd he hne⟩

theorem initPara_result (h : LiveInv L d) (hwork : HoldsWork L d p) (env : InitEnv) :
    InitResult L d (initPara L d p env) := by
  unfold initPara
  have hget := h.ioGetPhyMem p.vpuFd { p.paraBuf with size := paraBufSize } env.paraAlloc
  generalize ioGetPhyMemOf (Kernel.phymemAlloc L) p.vpuFd d { p.paraBuf with size := paraBufSize }
    env.paraAlloc = got at hget ⊢
  obtain ⟨d₁, para, ok⟩ := got
  obtain ⟨hlive, hbit⟩ := hget
  simp only
  generalize (if ok = true then ioGetVirtMem para env.paraVirt else (para, false)) = mapped
  obtain ⟨para', done⟩ := mapped
  simp only
  have hstill : HoldsWork L d₁ { p with paraBuf := para' } := hwork.of_same hbit rfl rfl
  split
  · have hset : d₁.bitworkMem.cpuAddr ≠ 0 := hstill.filled.placed.cpu_ne
    exact InitResult.of_live hlive (fun _ => hset) (fun _ => hset) (by simp)
  · exact InitResult.of_lost (hstill.err3 env.shutdownMutex) (.inr rfl)

theorem initCode_result (h : LiveInv L d) (hwork : HoldsWork L d p) (env : InitEnv) :
    InitResult L d (initCode L d p env) := by
  unfold initCode
  have hget := h.ioGetPhyMem p.vpuFd { p.codeBuf with size := codeBufSize } env.codeAlloc
  generalize ioGetPhyMemOf (Kernel.phymemAlloc L) p.vpuFd d { p.codeBuf with size := codeBufSize }
    env.codeAlloc = got at hget ⊢
  obtain ⟨d₁, code, ok⟩ := got
  obtain ⟨hlive, hbit⟩ := hget
  simp only
  generalize (if ok = true then ioGetVirtMem code env.codeVirt else (code, false)) = mapped
  obtain ⟨code', done⟩ := mapped
  simp only
  have hstill : HoldsWork L d₁ { p with codeBuf := code' } := hwork.of_same hbit rfl rfl
  split
  · have hpara := initPara_result hlive hstill env
    exact ⟨hpara.lost, hpara.live, fun hne _ => hpara.kept hne hstill.filled.placed.cpu_ne,
      hpara.known⟩
  · exact InitResult.of_lost (hstill.err2 env.shutdownMutex) (.inl rfl)

theorem initWork_result (h : LiveInv L d) (hfd : 0 ≤ p.vpuFd)
    (hp : p.bitWorkAddr.cpuAddr ≠ 0 → d.bitworkMem.cpuAddr ≠ 0) (env : InitEnv) :
    InitResult L d (initWork L d p env) := by
  unfold initWork ioGetPhyMemOf
  rw [if_neg (Int.not_lt.mpr hfd)]
  obtain ⟨hlive, hkept, hgot⟩ := h.getWork { p.bitWorkAddr with size := workBufSize } hp
  generalize getWorkAddr L d { p.bitWorkAddr with size := workBufSize } (copies true) = got
    at hlive hkept hgot ⊢
  obtain ⟨d₁, work, ret⟩ := got
  simp only at hlive hkept hgot ⊢
  split
  · -- the descriptor has lost its address, so nothing is known of a work buffer
    simp only [Bool.false_eq_true, if_false]
    obtain ⟨hdown, hbit⟩ := hlive.shutdown
      { p with bitWorkAddr := { p.bitWorkAddr with size := workBufSize, phyAddr := 0, cpuAddr := 0 } }
      env.shutdownMutex
    refine InitResult.of_live hdown ?_ ?_ (by simp)
    · rw [hbit]
      exact hkept
    · rw [ioSystemShutdown_bitWorkAddr]
      exact fun hne => absurd rfl hne
  · rename_i hret
    obtain ⟨hset, hsame⟩ := hgot hret
    simp only [if_true]
    have hwork : HoldsWork L d₁ { p with bitWorkAddr := (ioGetVirtMem work env.workVirt).1 } := by
      rw [hsame]
      exact ⟨hlive.bitwork hset, hfd, rfl, rfl, rfl⟩
    generalize ioGetVirtMem work env.workVirt = mapped at hwork ⊢
    obtain ⟨work', done⟩ := mapped
    simp only at hwork ⊢
    split
    · have hcode := initCode_result hlive hwork env
      exact ⟨hcode.lost, hcode.live, fun hne _ => hcode.kept hne hset, hcode.known⟩
    · obtain ⟨hdown, hbit⟩ := hlive.shutdown { p with bitWorkAddr := work' } env.shutdownMutex
      refine InitResult.of_live hdown ?_ ?_ (by simp)
      · rw [hbit]
        exact hkept
      · rw [hbit]
        exact fun _ => hset

theorem ioSystemInit_result (h : LiveInv L d)
    (hp : p.bitWorkAddr.cpuAddr ≠ 0 → d.bitworkMem.cpuAddr ≠ 0) (env : InitEnv) :
    InitResult L d (ioSystemInit L d p env) := by
  unfold ioSystemInit
  split
  · exact InitResult.of_live h id hp (by simp)
  split
  · exact InitResult.of_live h id hp (by simp)
  split
  · exact InitResult.of_live h id hp (by simp)
  rename_i fd _
  simp only
  split
  · have hwork := initWork_result
      (p := { p with vpuFd := fd, files := p.files + 1, vpuActiveNum := p.vpuActiveNum + 1 })
      h.vpuOpen (Int.natCast_nonneg fd) hp env
    exact ⟨hwork.lost, hwork.live, hwork.kept, hwork.known⟩
  · have hbit : (vpuRelease L (Kernel.vpuOpen d)).bitworkMem = d.bitworkMem :=
      release_bitworkMem L (Kernel.vpuOpen d)
    refine InitResult.of_live h.vpuOpen.release ?_ ?_ (by simp)
    · intro hset
      simpa only [closeFd, hbit] using hset
    · intro hset
      simpa only [closeFd, hbit] using hp hset

end Library

/-! ## Whole runs -/

/-- What holds between the steps of all processes. -/
structure IoInv (L : PoolLayout) (m : Machine) : Prop where
  live : LiveInv L m.driver
  known : ∀ pid p, m.procs pid = some p → p.bitWorkAddr.cpuAddr ≠ 0 →
    m.driver.bitworkMem.cpuAddr ≠ 0

/-- The initialization does not leave through a label that frees the work buffer, and a descriptor is
freed only while no buffer that stays live has a page of it. -/
def IoStep.Owned (L : PoolLayout) (m : Machine) (a : IoStep) : Prop :=
  match m.procs a.pid, a with
  | some p, .systemInit _ env =>
    (ioSystemInit L m.driver p env).2.2 ≠ .err2 ∧ (ioSystemInit L m.driver p env).2.2 ≠ .err3
  | some p, .freePhyMem _ name =>
    (p.bufs name).phyAddr ≠ 0 → 0 ≤ p.vpuFd →
      FreesUnowned L m.driver (copyFromUser (p.bufs name) memDescSize)
  | _, _ => True

section Runs

variable {L : PoolLayout} {m : Machine}

theorem IoInv.init (L : PoolLayout) : IoInv L Machine.init := by
  refine ⟨⟨fun m hm => absurd hm List.not_mem_nil, fun hset => absurd rfl hset, ?_⟩, ?_⟩
  · exact Separated.nil _
  · intro pid p hp
    cases hp

/-- One process moves and the driver with it. -/
theorem IoInv.set {d : Driver} {pid : ℕ} {next : Option Process} (h : IoInv L m)
    (hlive : LiveInv L d)
    (hkept : m.driver.bitworkMem.cpuAddr ≠ 0 → d.bitworkMem.cpuAddr ≠ 0)
    (hknown : ∀ p, next = some p → p.bitWorkAddr.cpuAddr ≠ 0 → d.bitworkMem.cpuAddr ≠ 0) :
    IoInv L (m.set pid d next) := by
  refine ⟨hlive, ?_⟩
  intro i p hp
  simp only [Machine.set] at hp ⊢
  split at hp
  · exact hknown p hp
  · exact fun hset => hkept (h.known i p hp hset)

theorem foldl_release {d : Driver} (h : LiveInv L d) (files : List ℕ) :
    LiveInv L (files.foldl (fun d _ => vpuRelease L d) d) ∧
      (files.foldl (fun d _ => vpuRelease L d) d).bitworkMem = d.bitworkMem := by
  induction files generalizing d with
  | nil => exact ⟨h, rfl⟩
  | cons _ files ih =>
    obtain ⟨hlive, hbit⟩ := ih h.release
    exact ⟨hlive, hbit.trans (release_bitworkMem L d)⟩

/-- What a free call of the library does. -/
theorem ioFreePhyMem_driver (L : PoolLayout) (vpuFd : ℤ) (d : Driver) (buff : MemDesc) :
    (ioFreePhyMem L vpuFd d buff).1 =
      if buff.phyAddr ≠ 0 ∧ 0 ≤ vpuFd then d.afterFree L (copyFromUser buff memDescSize) else d := by
  unfold ioFreePhyMem
  split <;> rfl

theorem IoInv.stepOf {pid : ℕ} {p : Process} (h : IoInv L m) (hp : m.procs pid = some p)
    {a : IoStep} (ha : a.pid = pid) (hok : a.Owned L m) : IoInv L (m.stepOf L pid p a) := by
  have hknown := h.known pid p hp
  subst ha
  cases a with
  | start _ => exact h
  | systemInit _ env =>
    simp only [IoStep.Owned, IoStep.pid] at hok hp
    simp only [hp] at hok
    -- `Owned` keeps to the exits that free no work buffer.
    have hres := ioSystemInit_result h.live hknown env
    have hexit : ¬ _ := not_or.mpr hok
    refine h.set (hres.live hexit) (hres.kept hexit) ?_
    rintro p' ⟨⟩
    exact hres.known hexit
  | getPhyMem _ name size kzalloc =>
    unfold Machine.stepOf
    simp only
    have hget := h.live.ioGetPhyMem p.vpuFd { p.bufs name with size := size } kzalloc
    generalize ioGetPhyMemOf (Kernel.phymemAlloc L) p.vpuFd m.driver
      { p.bufs name with size := size } kzalloc = got at hget ⊢
    obtain ⟨d, buff, _⟩ := got
    obtain ⟨hlive, hbit⟩ := hget
    refine h.set hlive ?_ ?_
    · rw [hbit]
      exact id
    · rintro p' ⟨⟩
      rw [hbit]
      exact hknown
  | freePhyMem _ name =>
    simp only [IoStep.Owned, IoStep.pid] at hok hp
    simp only [hp] at hok
    unfold Machine.stepOf
    simp only
    have hfree := ioFreePhyMem_driver L p.vpuFd m.driver (p.bufs name)
    generalize ioFreePhyMem L p.vpuFd m.driver (p.bufs name) = freed at hfree ⊢
    obtain ⟨d, buff⟩ := freed
    simp only at hfree ⊢
    -- The driver is called for a buffer with an address, on a file that is open.
    split at hfree
    · rename_i hcall
      have hlive : LiveInv L d := by
        rw [hfree]
        exact h.live.afterFree ((afterFree_ownershipOk_iff h.live).mpr (hok hcall.1 hcall.2))
      have hbit : d.bitworkMem = m.driver.bitworkMem := by
        rw [hfree]
        exact afterFree_bitworkMem _ _ _
      refine h.set hlive ?_ ?_
      · rw [hbit]
        exact id
      · rintro p' ⟨⟩
        rw [hbit]
        exact hknown
    · subst hfree
      refine h.set h.live id ?_
      rintro p' ⟨⟩
      exact hknown
  | systemShutdown _ mutex =>
    unfold Machine.stepOf
    simp only
    have hdown := h.live.shutdown p mutex
    have hwork := ioSystemShutdown_bitWorkAddr L m.driver p mutex
    generalize ioSystemShutdown L m.driver p mutex = down at hdown hwork ⊢
    obtain ⟨d, p₁⟩ := down
    obtain ⟨hlive, hbit⟩ := hdown
    refine h.set hlive ?_ ?_
    · rw [hbit]
      exact id
    · rintro p' ⟨⟩
      rw [hbit, hwork]
      exact hknown
  | death _ =>
    -- The files are closed one after the other.
    obtain ⟨hlive, hbit⟩ := foldl_release h.live (List.range p.files)
    refine h.set hlive ?_ ?_
    · rw [hbit]
      exact id
    · intro p' hp'
      cases hp'

theorem IoInv.step (h : IoInv L m) {a : IoStep} (hok : a.Owned L m) : IoInv L (m.step L a) := by
  unfold Machine.step
  cases hp : m.procs a.pid with
  | none =>
    cases a with
    | start pid =>
      refine h.set h.live id ?_
      rintro p' ⟨⟩
      exact fun hset => absurd rfl hset
    | _ => exact h
  | some p => exact h.stepOf hp rfl hok

/-- A step that frees what it does not own leaves a live buffer without a page of its own. -/
theorem IoStep.owned_of_ok (h : IoInv L m) {a : IoStep}
    (hok : OwnershipOk L (m.step L a).driver) : a.Owned L m := by
  unfold IoStep.Owned
  unfold Machine.step at hok
  cases hp : m.procs a.pid with
  | none => cases a <;> trivial
  | some p =>
    rw [hp] at hok
    cases a with
    | systemInit _ env =>
      have hres := ioSystemInit_result h.live (h.known _ p hp) env
      refine not_or.mp fun hexit => ?_
      exact (hres.lost hexit).not_ownershipOk hok
    | freePhyMem _ name =>
      intro hphy hfd
      apply (afterFree_ownershipOk_iff h.live).mp
      have hdriver := ioFreePhyMem_driver L p.vpuFd m.driver (p.bufs name)
      rw [if_pos ⟨hphy, hfd⟩] at hdriver
      rw [← hdriver]
      exact hok
    | _ => trivial

end Runs

/-- The live buffers of the driver are in order. -/
def BuffersSeparate (L : PoolLayout) (m : Machine) : Prop := OwnershipOk L m.driver

/-- In every run of any number of processes, the live buffers keep pages of their own in every state
exactly when no initialization gives the work buffer back and no descriptor is freed that has a page
of a buffer that stays live. -/
theorem dma_buffers_stay_separate (L : PoolLayout) (steps : List IoStep) :
    (∀ n, BuffersSeparate L (stateAt (Machine.step L) Machine.init steps n)) ↔
      Along (Machine.step L) Machine.init steps (fun m a => a.Owned L m) := by
  refine forall_good_iff_along (IoInv.init L) ?_ ?_ ?_
  · exact fun m a hinv hok => hinv.step hok
  · exact fun m hinv => hinv.live.ownershipOk
  · exact fun m a hinv hok => IoStep.owned_of_ok hinv hok

/-- Everything goes well until the code buffer cannot be allocated. -/
def noCodeBuf : InitEnv where
  systemRev := true
  fd := some 3
  semaphoreOpen := true
  mutex := true
  mapRegs := true
  workVirt := 1073741824
  codeAlloc := false
  codeVirt := 0
  paraAlloc := false
  paraVirt := 0
  shutdownMutex := true

/-- The work buffer is given back, and the driver keeps its descriptor. -/
theorem failed_init_frees_work_buffer :
    ¬ ∀ n, BuffersSeparate oneBlock
      (stateAt (Machine.step oneBlock) Machine.init [.start 0, .systemInit 0 noCodeBuf] n) := by
  intro hall
  refine BitworkLost.not_ownershipOk (L := oneBlock) ?_ (hall 2)
  refine ⟨by decide +kernel, ?_⟩
  intro hsub
  have hpage : ((0, 0) : Page) ∈ MemDesc.region oneBlock ⟨131072, 16777216, 16777216, 0⟩ := by
    unfold MemDesc.region PoolLayout.region
    rw [Set.mem_ofPred_eq]
    decide +kernel
  have hwork : (stateAt (Machine.step oneBlock) Machine.init [.start 0, .systemInit 0 noCodeBuf]
      2).driver.bitworkMem = ⟨131072, 16777216, 16777216, 0⟩ := by
    decide +kernel
  rw [hwork] at hsub
  have hused := hsub hpage
  unfold Pool.used at hused
  rw [Set.mem_ofPred_eq] at hused
  revert hused
  decide +kernel

end Lib
end ToonVpu
