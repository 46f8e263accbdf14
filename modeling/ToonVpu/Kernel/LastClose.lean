import ToonVpu.Kernel.Confinement

/-!
# LastClose — what the last close of the device does (`kernel/mxc_vpu.c`)

`vpu_open` counts up and `vpu_release` counts down; when the count reaches zero the chip is reset and
every allocation record is freed.  The count is a `u8`.  Beside the driver runs the true number of
open files, which the program does not have.

A file is needed for every call but `open`, so a history is one in which each such call finds a file
open.
-/

namespace ToonVpu
namespace Kernel

open Foundation.Runs

/-! ## The close -/

/-- The registers of the BIT processor that a close writes. -/
inductive BitReg
  | codeRun
  | codeReset
  | intClear
  deriving DecidableEq, Repr

/-- What a close does beside counting down. -/
inductive CloseOp
  | clkForceOn
  | writeReg (reg : BitReg) (val : ℕ)
  | clearCodecDone
  | freeBuffers
  deriving DecidableEq, Repr

/-- The hard reset, where the registers are mapped. -/
def hardReset (vpuBase : Bool) : List CloseOp :=
  if vpuBase then
    [.clkForceOn, .writeReg .codeRun 0, .writeReg .codeReset 1, .writeReg .codeReset 0,
      .writeReg .intClear 1, .clearCodecDone]
  else
    []

/-- The driver with the chip's mapping.  `files` is not read by the program. -/
structure Node where
  driver : Driver
  vpuBase : Bool
  /-- The number of open files. -/
  files : ℕ

/-- The driver when it is loaded; `vpu_init` fails where the registers cannot be mapped. -/
def Node.init : Node := ⟨Driver.init, true, 0⟩

/-- The condition of `vpu_release`: the count was positive and is now zero. -/
def Driver.countsToZero (d : Driver) : Bool := 0 < d.openCount && d.openCount - 1 = 0

/-- What `vpu_release` does to the chip and to the records, in order. -/
def Node.releaseOps (n : Node) : List CloseOp :=
  if n.driver.countsToZero then hardReset n.vpuBase ++ [.freeBuffers] else []

/-- The same for any call: no other call resets the chip or frees every record. -/
def Node.ops (n : Node) : Call → List CloseOp
  | .releaseFile => n.releaseOps
  | _ => []

section Steps

variable (L : PoolLayout)

/-- A call, with the files counted as they are. -/
def Node.step (n : Node) (a : Call) : Node :=
  { n with
    driver := n.driver.step L a
    files :=
      match a with
      | .openFile => n.files + 1
      | .releaseFile => n.files - 1
      | _ => n.files }

/-- The call is an `open`, or goes to a file that is open. -/
def HasFile (n : Node) (a : Call) : Prop := a = .openFile ∨ 0 < n.files

/-- The release of the only file that is open. -/
def IsLastClose (n : Node) (a : Call) : Prop := a = .releaseFile ∧ (n.step L a).files = 0

/-- The chip is reset and the records are freed exactly when the call is the last close. -/
structure ClosesRight (n : Node) (a : Call) : Prop where
  resets : IsLastClose L n a → n.ops a = hardReset true ++ [.freeBuffers]
  only : ¬ IsLastClose L n a → n.ops a = []
  /-- A release under which files stay open takes nothing from their users. -/
  kept : a = .releaseFile → ¬ IsLastClose L n a →
    (n.step L a).driver.head = n.driver.head ∧ (n.step L a).driver.pool = n.driver.pool
  cleared : IsLastClose L n a → (n.step L a).driver.head = []

/-- The count does not wrap: fewer than 255 files are open when one more is opened. -/
def CountFits (n : Node) (a : Call) : Prop := a = .openFile → n.files < 255

end Steps

/-! ## One call -/

section Calls

variable {L : PoolLayout} {d : Driver} {n : Node} {a : Call}

@[simp] theorem vpuFreeDmaBuffer_openCount (mem : MemDesc) :
    (vpuFreeDmaBuffer L d mem).openCount = d.openCount := by
  unfold vpuFreeDmaBuffer
  split <;> rfl

@[simp] theorem vpuFreeBuffers_openCount : (vpuFreeBuffers L d).openCount = d.openCount := by
  have hfold : ∀ (mems : List MemDesc) (d₁ : Driver),
      (mems.foldl (vpuFreeDmaBuffer L) d₁).openCount = d₁.openCount := by
    intro mems
    induction mems with
    | nil => exact fun d₁ => rfl
    | cons mem mems ih =>
      intro d₁
      rw [List.foldl_cons, ih, vpuFreeDmaBuffer_openCount]
  exact hfold _ d

/-- The two ways a release goes. -/
theorem vpuRelease_eq :
    vpuRelease L d =
      if d.countsToZero then vpuFreeBuffers L { d with openCount := 0 }
      else { d with openCount := d.openCount - 1 } := by
  unfold vpuRelease Driver.countsToZero
  by_cases hpos : 0 < d.openCount
  · by_cases hone : d.openCount - 1 = 0
    · simp [hpos, hone]
    · simp [hpos, hone]
  · have hzero : d.openCount = 0 := by omega
    cases d
    simp_all

/-- Every record has an address. -/
def Recorded (d : Driver) : Prop := ∀ m ∈ d.head, m.cpuAddr ≠ 0

/-- What every call but `open` and `release` keeps: the count, and that the records have an
address. -/
structure KeepsCount (d d' : Driver) : Prop where
  count : d'.openCount = d.openCount
  recorded : Recorded d → Recorded d'

theorem KeepsCount.same {d' : Driver} (hcount : d'.openCount = d.openCount)
    (hhead : d'.head = d.head) : KeepsCount d d' := by
  refine ⟨hcount, ?_⟩
  unfold Recorded
  rw [hhead]
  exact id

theorem KeepsCount.phymemAlloc (arg : MemDesc) (env : IoctlEnv) :
    KeepsCount d (phymemAlloc L d arg env).1 := by
  unfold Kernel.phymemAlloc
  split
  · exact .same rfl rfl
  split
  · exact .same rfl rfl
  rcases vpuAllocDmaBuffer_spec L d (copyFromUser arg env.readable) with
    hfail | ⟨pool, phys, heq, hplaced, -⟩
  · rw [hfail]
    exact .same rfl rfl
  rw [heq]
  simp only
  split
  · exact .same rfl rfl
  · refine ⟨rfl, fun h m hm => ?_⟩
    rcases List.mem_cons.mp hm with rfl | hm
    · exact hplaced.cpu_ne
    · exact h m hm

theorem KeepsCount.phymemFree (arg : MemDesc) (env : IoctlEnv) :
    KeepsCount d (phymemFree L d arg env).1 := by
  unfold Kernel.phymemFree
  split
  · exact .same rfl rfl
  · refine ⟨?_, fun h m hm => ?_⟩
    · simp only
      split
      · exact vpuFreeDmaBuffer_openCount _
      · rfl
    · apply h m
      have hsub := List.mem_of_mem_eraseP hm
      split at hsub
      · rwa [vpuFreeDmaBuffer_head] at hsub
      · exact hsub

theorem KeepsCount.getWorkAddr (arg : MemDesc) (env : IoctlEnv) :
    KeepsCount d (getWorkAddr L d arg env).1 := by
  unfold Kernel.getWorkAddr
  split
  · exact .same rfl rfl
  simp only
  split
  · exact .same rfl rfl
  rcases vpuAllocDmaBuffer_spec L { d with bitworkMem := copyFromUser arg env.readable }
      (copyFromUser arg env.readable) with hfail | ⟨pool, phys, heq, -⟩
  · rw [hfail]
    exact .same rfl rfl
  · rw [heq]
    simp only
    split <;> exact .same rfl rfl

theorem KeepsCount.step (hopen : a ≠ .openFile) (hrel : a ≠ .releaseFile) :
    KeepsCount d (d.step L a) := by
  cases a with
  | openFile => exact absurd rfl hopen
  | releaseFile => exact absurd rfl hrel
  | phymemAlloc arg env => exact .phymemAlloc arg env
  | phymemFree arg env => exact .phymemFree arg env
  | getWorkAddr arg env => exact .getWorkAddr arg env
  | setBitworkMem arg env => exact .same rfl rfl
  | getShareMem arg env =>
    simp only [Driver.step, Driver.call, Kernel.getShareMem]
    split_ifs <;> exact .same rfl rfl
  | reqVshareMem arg env =>
    simp only [Driver.step, Driver.call, Kernel.reqVshareMem]
    split_ifs <;> exact .same rfl rfl

theorem vpuRelease_openCount : (vpuRelease L d).openCount = d.openCount - 1 := by
  rw [vpuRelease_eq]
  split
  · rename_i hzero
    simp only [Driver.countsToZero, Bool.and_eq_true, decide_eq_true_eq] at hzero
    rw [vpuFreeBuffers_openCount]
    exact hzero.2.symm
  · rfl

theorem Recorded.freeBuffers_head (h : Recorded d) : (vpuFreeBuffers L d).head = [] := by
  unfold vpuFreeBuffers
  simp only [List.filter_eq_nil_iff, decide_eq_true_eq]
  exact h

theorem Recorded.release (h : Recorded d) : Recorded (vpuRelease L d) := by
  rw [vpuRelease_eq]
  split
  · have hnone : (vpuFreeBuffers L { d with openCount := 0 }).head = [] :=
      Recorded.freeBuffers_head h
    unfold Recorded
    rw [hnone]
    exact fun m hm => absurd hm List.not_mem_nil
  · exact h

/-! ## Histories -/

/-- As long as the count has not wrapped, it is the number of open files. -/
structure Counted (n : Node) : Prop where
  count : n.driver.openCount = n.files
  small : n.files ≤ 255
  recorded : Recorded n.driver
  mapped : n.vpuBase = true

theorem Counted.init : Counted Node.init :=
  ⟨rfl, by decide, fun _ hm => absurd hm List.not_mem_nil, rfl⟩

theorem Counted.step (h : Counted n) (hfits : CountFits n a) : Counted (n.step L a) := by
  by_cases hopen : a = .openFile
  · subst hopen
    have hroom := hfits rfl
    refine ⟨?_, hroom, h.recorded, h.mapped⟩
    change (n.driver.openCount + 1) % 256 = n.files + 1
    rw [h.count]
    omega
  by_cases hrel : a = .releaseFile
  · subst hrel
    refine ⟨?_, ?_, h.recorded.release, h.mapped⟩
    · change (vpuRelease L n.driver).openCount = n.files - 1
      rw [vpuRelease_openCount, h.count]
    · exact (Nat.sub_le _ _).trans h.small
  · have hkeep : KeepsCount n.driver (n.driver.step L a) := .step hopen hrel
    have hfiles : (n.step L a).files = n.files := by
      cases a <;> first | rfl | contradiction
    refine ⟨?_, ?_, hkeep.recorded h.recorded, h.mapped⟩
    · rw [hfiles]
      exact hkeep.count.trans h.count
    · rw [hfiles]
      exact h.small

/-- The count tells the last close from the others. -/
theorem Counted.closesRight (h : Counted n) (hfile : HasFile n a) : ClosesRight L n a := by
  by_cases hrel : a = .releaseFile
  · subst hrel
    have hpos : 0 < n.files := hfile.resolve_left (by simp)
    have hlast : IsLastClose L n .releaseFile ↔ n.driver.countsToZero = true := by
      have hfiles : IsLastClose L n .releaseFile ↔ n.files - 1 = 0 := by
        simp [IsLastClose, Node.step]
      rw [hfiles, Driver.countsToZero, h.count]
      simp [hpos]
    have hdriver : (n.step L .releaseFile).driver = vpuRelease L n.driver := rfl
    refine ⟨fun hl => ?_, fun hl => ?_, fun _ hl => ?_, fun hl => ?_⟩
    · rw [Node.ops, Node.releaseOps, if_pos (hlast.mp hl), h.mapped]
    · rw [Node.ops, Node.releaseOps, if_neg (mt hlast.mpr hl)]
    · rw [hdriver, vpuRelease_eq, if_neg (mt hlast.mpr hl)]
      exact ⟨rfl, rfl⟩
    · rw [hdriver, vpuRelease_eq, if_pos (hlast.mp hl)]
      exact Recorded.freeBuffers_head h.recorded
  · have hnot : ¬ IsLastClose L n a := fun hl => hrel hl.1
    refine ⟨fun hl => absurd hl hnot, fun _ => ?_, fun hl => absurd hl hrel,
      fun hl => absurd hl hnot⟩
    cases a <;> first | rfl | contradiction

/-- The count after it has wrapped. -/
def Lags (n : Node) : Prop := n.driver.openCount < n.files

/-- A call that closes right does not let the count catch up with the files. -/
theorem Lags.step (hlag : Lags n) (hright : ClosesRight L n a) : Lags (n.step L a) := by
  unfold Lags at hlag
  by_cases hopen : a = .openFile
  · subst hopen
    change (n.driver.openCount + 1) % 256 < n.files + 1
    exact (Nat.mod_le _ _).trans_lt (Nat.add_lt_add_right hlag 1)
  by_cases hrel : a = .releaseFile
  · subst hrel
    change (vpuRelease L n.driver).openCount < n.files - 1
    rw [vpuRelease_openCount]
    -- The count may only reach zero together with the files.
    by_cases hzero : n.driver.countsToZero = true
    · by_cases hl : IsLastClose L n .releaseFile
      · have hfiles : n.files - 1 = 0 := hl.2
        simp only [Driver.countsToZero, Bool.and_eq_true, decide_eq_true_eq] at hzero
        omega
      · have hops := hright.only hl
        simp [Node.ops, Node.releaseOps, hzero] at hops
    · by_cases hl : IsLastClose L n .releaseFile
      · have hops := hright.resets hl
        simp [Node.ops, Node.releaseOps, hzero] at hops
      · have hfiles : n.files - 1 ≠ 0 := fun h0 => hl ⟨rfl, h0⟩
        omega
  · have hfiles : (n.step L a).files = n.files := by
      cases a <;> first | rfl | contradiction
    have hkeep : KeepsCount n.driver (n.driver.step L a) := .step hopen hrel
    unfold Lags
    rw [hfiles]
    exact hkeep.count.trans_lt hlag

/-- The open that wraps the count. -/
theorem lags_of_not_countFits (h : Counted n ∨ Lags n) (hwrap : ¬ CountFits n a) :
    Lags (n.step L a) := by
  simp only [CountFits, Classical.not_imp] at hwrap
  obtain ⟨rfl, hfull⟩ := hwrap
  change (n.driver.openCount + 1) % 256 < n.files + 1
  rcases h with h | hlag
  · rw [h.count]
    have := h.small
    omega
  · exact (Nat.mod_le _ _).trans_lt (Nat.add_lt_add_right hlag 1)

end Calls

section Histories

variable (L : PoolLayout) (calls : List Call)

/-- Every call but `open` has a file. -/
def History : Prop := Along (Node.step L) Node.init calls HasFile

/-- Every call closes right. -/
def HistoryClosesRight : Prop := Along (Node.step L) Node.init calls (ClosesRight L)

/-- The count wraps at no call. -/
def HistoryCountFits : Prop := Along (Node.step L) Node.init calls CountFits

variable {L calls}

theorem closesRight_of_countFits (hhist : History L calls) (hfits : HistoryCountFits L calls) :
    HistoryClosesRight L calls := by
  intro k a ha
  have hinv : Counted (stateAt (Node.step L) Node.init calls k) :=
    hfits.invariant Counted.init (fun n a h hok => h.step hok) k
  exact hinv.closesRight (hhist k a ha)

/-- From a state that lags, a history that closes right goes on lagging. -/
theorem lags_stateAt (hright : HistoryClosesRight L calls) {k m : ℕ} (hkm : k ≤ m)
    (hlag : Lags (stateAt (Node.step L) Node.init calls k)) :
    Lags (stateAt (Node.step L) Node.init calls m) := by
  induction m, hkm using Nat.le_induction with
  | base => exact hlag
  | succ m _ ih =>
    cases ha : calls[m]? with
    | none =>
      rw [stateAt_past _ _ _ ha]
      exact ih
    | some a =>
      rw [stateAt_succ _ _ _ ha]
      exact ih.step (hright m a ha)

theorem countFits_of_closesRight (hright : HistoryClosesRight L calls)
    (hend : (stateAt (Node.step L) Node.init calls calls.length).files = 0) :
    HistoryCountFits L calls := by
  -- Until the count wraps it is exact, afterwards it lags.
  have hstep : ∀ n a, Counted n ∨ Lags n → ClosesRight L n a →
      Counted (n.step L a) ∨ Lags (n.step L a) := by
    intro n a h hok
    by_cases hfits : CountFits n a
    · rcases h with h | hlag
      · exact .inl (h.step hfits)
      · exact .inr (hlag.step hok)
    · exact .inr (lags_of_not_countFits h hfits)
  intro k a ha
  by_contra hwrap
  have hinit : Counted Node.init ∨ Lags Node.init := .inl Counted.init
  have hinv : Counted (stateAt (Node.step L) Node.init calls k) ∨
      Lags (stateAt (Node.step L) Node.init calls k) :=
    Along.invariant hright hinit hstep k
  have hlag : Lags ((stateAt (Node.step L) Node.init calls k).step L a) :=
    lags_of_not_countFits hinv hwrap
  rw [← stateAt_succ (Node.step L) Node.init calls ha] at hlag
  have hk : k + 1 ≤ calls.length := by
    rw [List.getElem?_eq_some_iff] at ha
    exact ha.1
  have hlast := lags_stateAt hright hk hlag
  rw [Lags, hend] at hlast
  exact Nat.not_lt_zero _ hlast

end Histories

/-- **Last close.** In a history in which fewer than 256 files are ever open, every release after which
no file is open resets the chip and leaves no record, and no other call resets the chip or frees the
records.  A history that ends with every file closed does so only if fewer than 256 were ever open. -/
theorem last_close_frees (L : PoolLayout) (calls : List Call) (hhist : History L calls) :
    (HistoryCountFits L calls → HistoryClosesRight L calls) ∧
      ((stateAt (Node.step L) Node.init calls calls.length).files = 0 →
        HistoryClosesRight L calls → HistoryCountFits L calls) :=
  ⟨closesRight_of_countFits hhist, fun hend hright => countFits_of_closesRight hright hend⟩

/-- One process opens the device, takes a buffer and closes it. -/
def openAllocRelease : List Call := [.openFile, .phymemAlloc ⟨4096, 0, 0, 0⟩ calm, .releaseFile]

theorem openAllocRelease_history : History oneBlock openAllocRelease := by
  intro k a ha
  match k with
  | 0 => exact .inl (by simpa [openAllocRelease] using ha.symm)
  | 1 => exact .inr (by decide +kernel)
  | 2 => exact .inr (by decide +kernel)
  | k + 3 => simp [openAllocRelease] at ha

theorem last_close_frees_single :
    History oneBlock openAllocRelease ∧ HistoryClosesRight oneBlock openAllocRelease := by
  refine ⟨openAllocRelease_history, ?_⟩
  apply (last_close_frees oneBlock openAllocRelease openAllocRelease_history).1
  intro k a ha
  match k with
  | 0 => exact fun _ => by decide
  | 1 => exact fun _ => by decide +kernel
  | 2 => exact fun _ => by decide +kernel
  | k + 3 => simp [openAllocRelease] at ha

/-- `m` files are opened and one is closed. -/
def crowd (m : ℕ) : List Call := List.replicate m .openFile ++ [.releaseFile]

section Crowd

variable {L : PoolLayout} {m k : ℕ}

theorem crowd_open (hk : k < m) : (crowd m)[k]? = some .openFile := by
  have hlen : k < (List.replicate m Call.openFile).length := by
    rwa [List.length_replicate]
  rw [crowd, List.getElem?_append_left hlen, List.getElem?_replicate, if_pos hk]

theorem crowd_release (m : ℕ) : (crowd m)[m]? = some .releaseFile := by
  simp [crowd]

/-- The device after `k` opens. -/
theorem stateAt_crowd (hk : k ≤ m) :
    stateAt (Node.step L) Node.init (crowd m) k =
      ⟨{ Driver.init with openCount := k % 256 }, true, k⟩ := by
  induction k with
  | zero => rfl
  | succ k ih =>
    rw [stateAt_succ _ _ _ (crowd_open hk), ih (Nat.le_of_succ_le hk)]
    simp only [Node.step, Driver.step, Driver.call, vpuOpen, Nat.mod_add_mod]

theorem crowd_history (hm : 0 < m) : History L (crowd m) := by
  intro k a ha
  rcases Nat.lt_trichotomy k m with hk | rfl | hk
  · rw [crowd_open hk] at ha
    exact .inl (Option.some.inj ha).symm
  · right
    rw [stateAt_crowd (Nat.le_refl k)]
    exact hm
  · have hlen : (crowd m).length ≤ k := by
      simp only [crowd, List.length_append, List.length_replicate, List.length_singleton]
      exact hk
    rw [List.getElem?_eq_none hlen] at ha
    cases ha

end Crowd

/-- With 257 files open the count is one: the first release resets the chip under 256 users. -/
theorem release_under_open_files :
    History oneBlock (crowd 257) ∧ ¬ HistoryClosesRight oneBlock (crowd 257) := by
  refine ⟨crowd_history (by decide), fun hright => ?_⟩
  have hops := (hright 257 _ (crowd_release 257)).only
  rw [stateAt_crowd (Nat.le_refl 257)] at hops
  have hopen : ¬ IsLastClose oneBlock
      ⟨{ Driver.init with openCount := 257 % 256 }, true, 257⟩ .releaseFile :=
    fun hlast => absurd hlast.2 (by decide)
  exact absurd (hops hopen) (by decide)

end Kernel
end ToonVpu
