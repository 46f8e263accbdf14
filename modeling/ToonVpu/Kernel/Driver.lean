import Mathlib.Algebra.Group.Nat.Defs
import ToonVpu.Foundation.Runs
import ToonVpu.Kernel.Pool

/-!
# Driver — the memory side of the character device (`kernel/mxc_vpu.c`)

`/dev/mxc_vpu` hands out DMA buffers from the pool and keeps a record of each in the list `head`.
Three descriptors outlive the files: `bitwork_mem`, the work buffer of the BIT processor, and the
shared memories `share_mem` and `vshare_mem`.  Each `ioctl` takes a `vpu_mem_desc` from the caller
and gives one back.

What the kernel answers comes with the call: how much of the descriptor could be copied in and out,
whether `kzalloc` found memory, and the address `vmalloc_user` returned.
-/

namespace ToonVpu
namespace Kernel

open Foundation
open Foundation.Ownership

/-! ## Descriptors -/

/-- `struct vpu_mem_desc`: four words. -/
structure MemDesc where
  size : ℕ := 0
  phyAddr : ℕ := 0
  cpuAddr : ℕ := 0
  virtUaddr : ℕ := 0
  deriving DecidableEq, Repr

/-- The pages a descriptor stands for. -/
def MemDesc.region (L : PoolLayout) (m : MemDesc) : Set Page := L.region m.phyAddr m.size

/-- The first `n` bytes of the words at `off`, the rest zero. -/
def copiedWord (word off n : ℕ) : ℕ := word % 256 ^ min 4 (n - off)

/-- `sizeof(struct vpu_mem_desc)`. -/
def memDescSize : ℕ := 16

/-- `copy_from_user` of a descriptor of which `n` bytes are readable: the kernel pads with zero
bytes what it cannot copy. -/
def copyFromUser (arg : MemDesc) (n : ℕ) : MemDesc :=
  ⟨copiedWord arg.size 0 n, copiedWord arg.phyAddr 4 n, copiedWord arg.cpuAddr 8 n,
    copiedWord arg.virtUaddr 12 n⟩

/-! ## State -/

/-- The driver's static variables.  The lists of addresses that the allocators returned, each with
its size, are not read by the program. -/
structure Driver where
  pool : Pool
  /-- The allocation records, latest first. -/
  head : List MemDesc
  bitworkMem : MemDesc
  shareMem : MemDesc
  vshareMem : MemDesc
  /-- A `u8`. -/
  openCount : ℕ
  pooled : List (ℕ × ℕ)
  vmalloced : List (ℕ × ℕ)

/-- The driver when it is loaded. -/
def Driver.init : Driver := ⟨Pool.init, [], {}, {}, {}, 0, [], []⟩

/-- What a call meets in the kernel. -/
structure IoctlEnv where
  kzalloc : Bool
  /-- The number of bytes of the descriptor that can be read. -/
  readable : ℕ
  /-- The number of bytes of the descriptor that cannot be written. -/
  notCopied : ℕ
  /-- The address `vmalloc_user` returns, `0` if it fails. -/
  vmalloc : ℕ
  deriving DecidableEq, Repr

/-! ## DMA buffers -/

section Calls

variable (L : PoolLayout)

/-- `vpu_alloc_dma_buffer`; `none` stands for `-1`. -/
def vpuAllocDmaBuffer (d : Driver) (mem : MemDesc) : Driver × Option MemDesc :=
  let (pool, phys) := vpuPoolAlloc L d.pool mem.size
  if phys = 0 then
    ({ d with pool := pool }, none)
  else
    ({ d with pool := pool, pooled := (phys, mem.size) :: d.pooled },
      some { mem with phyAddr := phys, cpuAddr := phys })

/-- `vpu_free_dma_buffer`. -/
def vpuFreeDmaBuffer (d : Driver) (mem : MemDesc) : Driver :=
  if mem.phyAddr ≠ 0 then { d with pool := vpuPoolFree L d.pool mem.phyAddr mem.size } else d

/-- `vpu_free_buffers`: each record with a `cpu_addr` is freed and deleted. -/
def vpuFreeBuffers (d : Driver) : Driver :=
  let freed := (d.head.filter fun mem => mem.cpuAddr ≠ 0).foldl (vpuFreeDmaBuffer L) d
  { freed with head := d.head.filter fun mem => mem.cpuAddr = 0 }

/-! ## Calls

Each returns the driver, what the caller's descriptor then holds, and the return value. -/

/-- `VPU_IOC_PHYMEM_ALLOC`. -/
def phymemAlloc (d : Driver) (arg : MemDesc) (env : IoctlEnv) : Driver × MemDesc × ℤ :=
  if env.kzalloc = false then
    (d, arg, -12)
  else if env.readable < memDescSize then
    (d, arg, -14)
  else
    match vpuAllocDmaBuffer L d (copyFromUser arg env.readable) with
    | (d, none) => (d, arg, -1)
    | (d, some mem) =>
      -- The pages of a buffer that cannot be reported stay marked.
      if env.notCopied ≠ 0 then (d, arg, -14) else ({ d with head := mem :: d.head }, mem, 0)

/-- `VPU_IOC_PHYMEM_FREE`: the pages come from the caller's descriptor, the record from its
`cpu_addr`. -/
def phymemFree (d : Driver) (arg : MemDesc) (env : IoctlEnv) : Driver × MemDesc × ℤ :=
  if env.readable < memDescSize then
    (d, arg, -13)
  else
    let mem := copyFromUser arg env.readable
    let d := if mem.cpuAddr ≠ 0 then vpuFreeDmaBuffer L d mem else d
    ({ d with head := d.head.eraseP fun rec => rec.cpuAddr = mem.cpuAddr }, arg, 0)

/-- `VPU_IOC_GET_WORK_ADDR`. -/
def getWorkAddr (d : Driver) (arg : MemDesc) (env : IoctlEnv) : Driver × MemDesc × ℤ :=
  if d.bitworkMem.cpuAddr ≠ 0 then
    (d, if env.notCopied = 0 then d.bitworkMem else arg, env.notCopied)
  else
    let mem := copyFromUser arg env.readable
    let d := { d with bitworkMem := mem }
    if env.readable < memDescSize then
      (d, arg, -14)
    else
      match vpuAllocDmaBuffer L d mem with
      | (d, none) => (d, arg, -14)
      | (d, some mem) =>
        let d := { d with bitworkMem := mem }
        if env.notCopied ≠ 0 then (d, arg, -14) else (d, mem, 0)

/-- `VPU_IOC_SET_BITWORK_MEM`. -/
def setBitworkMem (d : Driver) (arg : MemDesc) (env : IoctlEnv) : Driver × MemDesc × ℤ :=
  ({ d with bitworkMem := copyFromUser arg env.readable }, arg,
    if env.readable < memDescSize then -14 else 0)

/-- `VPU_IOC_GET_SHARE_MEM`. -/
def getShareMem (d : Driver) (arg : MemDesc) (env : IoctlEnv) : Driver × MemDesc × ℤ :=
  if d.shareMem.cpuAddr ≠ 0 then
    (d, if env.notCopied = 0 then d.shareMem else arg, env.notCopied)
  else
    let mem := copyFromUser arg env.readable
    if env.readable < memDescSize then
      ({ d with shareMem := mem }, arg, -14)
    else if env.vmalloc = 0 then
      ({ d with shareMem := { mem with cpuAddr := 0 } }, arg, -12)
    else
      let mem := { mem with cpuAddr := env.vmalloc, phyAddr := env.vmalloc }
      let d := { d with shareMem := mem, vmalloced := (env.vmalloc, mem.size) :: d.vmalloced }
      if env.notCopied ≠ 0 then (d, arg, -14) else (d, mem, 0)

/-- `VPU_IOC_REQ_VSHARE_MEM`: an address that the caller left in the descriptor is kept. -/
def reqVshareMem (d : Driver) (arg : MemDesc) (env : IoctlEnv) : Driver × MemDesc × ℤ :=
  if d.vshareMem.cpuAddr ≠ 0 then
    (d, if env.notCopied = 0 then d.vshareMem else arg, env.notCopied)
  else
    let mem := copyFromUser arg env.readable
    if env.readable < memDescSize then
      ({ d with vshareMem := mem }, arg, -14)
    else
      let d :=
        if mem.cpuAddr = 0 ∧ env.vmalloc ≠ 0 then
          { d with vmalloced := (env.vmalloc, mem.size) :: d.vmalloced }
        else
          d
      let mem := if mem.cpuAddr = 0 then { mem with cpuAddr := env.vmalloc } else mem
      let d := { d with vshareMem := mem }
      if env.notCopied ≠ 0 then (d, arg, -14) else (d, mem, 0)

/-- `vpu_open`. -/
def vpuOpen (d : Driver) : Driver := { d with openCount := (d.openCount + 1) % 256 }

/-- `vpu_release`; the hardware reset of the last close is left out. -/
def vpuRelease (d : Driver) : Driver :=
  if 0 < d.openCount then
    let d := { d with openCount := d.openCount - 1 }
    if d.openCount = 0 then vpuFreeBuffers L d else d
  else
    d

/-! ## Runs -/

/-- A call from any process. -/
inductive Call
  | openFile
  | releaseFile
  | phymemAlloc (arg : MemDesc) (env : IoctlEnv)
  | phymemFree (arg : MemDesc) (env : IoctlEnv)
  | getWorkAddr (arg : MemDesc) (env : IoctlEnv)
  | setBitworkMem (arg : MemDesc) (env : IoctlEnv)
  | getShareMem (arg : MemDesc) (env : IoctlEnv)
  | reqVshareMem (arg : MemDesc) (env : IoctlEnv)

/-- What a call does, with its return value. -/
def Driver.call (d : Driver) : Call → Driver × ℤ
  | .openFile => (vpuOpen d, 0)
  | .releaseFile => (vpuRelease L d, 0)
  | .phymemAlloc arg env => ((Kernel.phymemAlloc L d arg env).1, (Kernel.phymemAlloc L d arg env).2.2)
  | .phymemFree arg env => ((Kernel.phymemFree L d arg env).1, (Kernel.phymemFree L d arg env).2.2)
  | .getWorkAddr arg env => ((Kernel.getWorkAddr L d arg env).1, (Kernel.getWorkAddr L d arg env).2.2)
  | .setBitworkMem arg env => ((Kernel.setBitworkMem d arg env).1, (Kernel.setBitworkMem d arg env).2.2)
  | .getShareMem arg env => ((Kernel.getShareMem d arg env).1, (Kernel.getShareMem d arg env).2.2)
  | .reqVshareMem arg env => ((Kernel.reqVshareMem d arg env).1, (Kernel.reqVshareMem d arg env).2.2)

def Driver.step (d : Driver) (a : Call) : Driver := (d.call L a).1

end Calls

end Kernel
end ToonVpu
