import ToonVpu.Foundation.Runs
import ToonVpu.Lib.Semaphore

/-!
# Lifetime — processes that use the library one after another

The kernel keeps `share_mem` when its last user closes the device, so the next process maps what
the previous one left, whether that one finished or was killed in the middle of a call.
`vpu_semaphore_open` is what makes the memory usable again.  This module runs the decoder calls of
`Semaphore` under kills and restarts, and says when the lock and the pending instance agree.
-/

namespace ToonVpu
namespace Lib

open Foundation.Runs

/-! ## Processes -/

/-- A decoder call, with what the hardware answers. -/
inductive ApiCall
  | decOpen (initialized : Bool) (param : Option DecOpenParam)
  | decSetEscSeqInit (handle : DecHandle) (escape : ℤ)
  | decGetInitialInfo (handle : DecHandle) (info : Bool) (seq : SeqInit)
  | decRegisterFrameBuffer (handle : DecHandle) (bufArray : Bool) (num stride : ℤ)
  | decStartOneFrame (handle : DecHandle)
  | decGetOutputInfo (handle : DecHandle) (info : Bool)
  | decClrDispFlag (handle : DecHandle) (index : ℤ)
  | decBitBufferFlush (handle : DecHandle)
  | decClose (handle : DecHandle)
  deriving DecidableEq, Repr

def ApiCall.run (v : Vpu) : ApiCall → Vpu × RetCode
  | .decOpen initialized param =>
    let (v, _, ret) := vpuDecOpen v initialized param
    (v, ret)
  | .decSetEscSeqInit handle escape => vpuDecSetEscSeqInit v handle escape
  | .decGetInitialInfo handle info seq => vpuDecGetInitialInfo v handle info seq
  | .decRegisterFrameBuffer handle bufArray num stride =>
    vpuDecRegisterFrameBuffer v handle bufArray num stride
  | .decStartOneFrame handle => vpuDecStartOneFrame v handle
  | .decGetOutputInfo handle info => vpuDecGetOutputInfo v handle info
  | .decClrDispFlag handle index => vpuDecClrDispFlag v handle index
  | .decBitBufferFlush handle => vpuDecBitBufferFlush v handle
  | .decClose handle => vpuDecClose v handle

/-- The shared memory and the process that uses it, if there is one: the calls it has completed,
latest first. -/
structure System where
  semap : Semaphore
  calls : Option (List (ApiCall × RetCode))

/-- The machine after boot. -/
def System.boot : System := ⟨Semaphore.zero, none⟩

/-- A process maps the shared memory. -/
def mapped (s : Semaphore) : Vpu := ⟨s, [], 0, []⟩

/-- The shared memory of a call that was killed after `k` stores. -/
def Vpu.after (v : Vpu) (k : ℕ) : Semaphore := (v.semap :: v.past).reverse.getD k v.semap

inductive Action
  /-- A process starts and runs `vpu_Init`. -/
  | start (initialized download : Bool)
  /-- The same, killed after `k` stores. -/
  | startKilled (initialized download : Bool) (k : ℕ)
  /-- The process makes a call. -/
  | call (c : ApiCall)
  /-- The process is killed after `k` stores of a call; before any, it is killed between calls. -/
  | callKilled (c : ApiCall) (k : ℕ)

/-- One action; it has no effect where there is no process to take it, or already one. -/
def System.step (s : System) (a : Action) : System :=
  match a, s.calls with
  | .start initialized download, none =>
    match vpuInit (mapped s.semap) initialized download with
    | (v, .success) => ⟨v.semap, some []⟩
    | (v, _) => ⟨v.semap, none⟩
  | .startKilled initialized download k, none =>
    ⟨(vpuInit (mapped s.semap) initialized download).1.after k, none⟩
  | .call c, some calls =>
    let (v, ret) := c.run (mapped s.semap)
    ⟨v.semap, some ((c, ret) :: calls)⟩
  | .callKilled c k, some _ => ⟨(c.run (mapped s.semap)).1.after k, none⟩
  | _, _ => s

/-! ## The agreement -/

/-- Among the calls of a process there is a `vpu_DecStartOneFrame` of instance `i` whose output
was not collected since. -/
def Started (i : Inst) (calls : List (ApiCall × RetCode)) : Prop :=
  ∃ newer older, calls = newer ++ (.decStartOneFrame (some i), .success) :: older ∧
    ∀ handle info, (ApiCall.decGetOutputInfo handle info, RetCode.success) ∉ newer

/-- Between the calls of a process the lock is held exactly while a frame is in progress, no free
lock was ever unlocked, and every collected output belongs to a frame the process started. -/
structure Agreement (s : System) : Prop where
  lock_iff : s.calls ≠ none → (s.semap.apiLock = true ↔ s.semap.pendingInst ≠ none)
  held_unlock : s.semap.freeUnlocks = 0
  output : ∀ newer older handle info,
    s.calls = some (newer ++ (.decGetOutputInfo handle info, .success) :: older) →
      ∃ i, handle = some i ∧ Started i older

/-- Action `a` does not start a process on a memory that still names a pending instance. -/
def StartsClean (s : System) (a : Action) : Prop :=
  ∀ initialized download, a = .start initialized download → s.calls = none →
    (initialized || download) = true → s.semap.pendingInst = none

/-! ## Killed calls -/

namespace Vpu

variable {v : Vpu} {i : Inst}

/-- The number of free unlocks never drops from one store to the next. -/
def Grown (v : Vpu) : Prop := ∀ s ∈ v.past, s.freeUnlocks ≤ v.semap.freeUnlocks

theorem Grown.store (h : v.Grown) {f : Semaphore → Semaphore}
    (hf : v.semap.freeUnlocks ≤ (f v.semap).freeUnlocks) : (v.store f).Grown := by
  intro s hs
  rcases List.mem_cons.mp hs with rfl | hs
  · exact hf
  · exact (h s hs).trans hf

theorem Grown.locked (h : v.Grown) : v.locked.Grown := h.store le_rfl

theorem Grown.unlockVpu (h : v.Grown) : v.unlockVpu.Grown := by
  apply h.store
  simp only
  split
  · exact le_rfl
  · exact Nat.le_succ _

theorem Grown.storeInst (h : v.Grown) (f : CodecInst → CodecInst) : (v.storeInst i f).Grown :=
  h.store le_rfl

theorem Grown.setPendingInst (h : v.Grown) (p : DecHandle) : (v.setPendingInst p).Grown :=
  h.store le_rfl

theorem Grown.bitIssueCommand (h : v.Grown) (cmd : BitCommand) : (v.bitIssueCommand i cmd).Grown :=
  h

theorem Grown.underLock (h : v.Grown) {body : Vpu → Vpu × RetCode}
    (hbody : ∀ w : Vpu, w.Grown → (body w).1.Grown) : (v.underLock body).1.Grown := by
  cases hlock : v.semap.apiLock with
  | true =>
    rw [underLock_held hlock]
    exact h
  | false =>
    rw [underLock_free hlock]
    exact hbody _ h.locked

theorem Grown.onInstance (h : v.Grown) {handle : DecHandle} {body : Inst → Vpu × RetCode}
    (hbody : ∀ i, (body i).1.Grown) : (Lib.onInstance v handle body).1.Grown := by
  by_cases hvalid : checkDecInstanceValidity v.semap handle = .success
  · obtain ⟨i, rfl⟩ := exists_of_valid hvalid
    rw [onInstance_valid hvalid]
    exact hbody i
  · rw [onInstance_invalid hvalid]
    exact h

/-- A kill leaves one of the contents that the call went through. -/
theorem after_mem (v : Vpu) (k : ℕ) : v.after k = v.semap ∨ v.after k ∈ v.past := by
  have hmem : v.after k ∈ v.semap :: v.past := by
    unfold after
    rw [List.getD_eq_getElem?_getD]
    cases hk : (v.semap :: v.past).reverse[k]? with
    | none => simp
    | some s =>
      have := List.mem_of_getElem? hk
      simpa [or_comm] using this
  exact List.mem_cons.mp hmem

theorem Grown.after (h : v.Grown) (hfree : v.semap.freeUnlocks = 0) (k : ℕ) :
    (v.after k).freeUnlocks = 0 := by
  rcases v.after_mem k with heq | hmem
  · rw [heq, hfree]
  · have := h _ hmem
    omega

end Vpu

theorem mapped_grown (s : Semaphore) : (mapped s).Grown := by
  intro t ht
  simp [mapped] at ht

theorem vpuDecOpen_grown {v : Vpu} (h : v.Grown) (initialized : Bool)
    (param : Option DecOpenParam) : (vpuDecOpen v initialized param).1.Grown := by
  unfold vpuDecOpen
  split
  · exact h
  split
  · rename_i pop _
    cases hlock : v.semap.apiLock with
    | true =>
      simp only [lockVpu_held hlock]
      exact h
    | false =>
      simp only [lockVpu_free hlock]
      have hget : (getCodecInstance v.locked).1.Grown := by
        unfold getCodecInstance
        split
        · exact h.locked
        · exact h.locked.storeInst _
      generalize getCodecInstance v.locked = got at hget ⊢
      obtain ⟨w, free⟩ := got
      cases free with
      | none => exact hget.unlockVpu
      | some i =>
        have hstored : (w.unlockVpu.storeInst i (openInst pop)).Grown := hget.unlockVpu.storeInst _
        simp only
        generalize w.unlockVpu.storeInst i (openInst pop) = w' at hstored ⊢
        cases hlock' : w'.semap.apiLock with
        | true =>
          simp only [lockVpu_held hlock']
          exact hstored
        | false =>
          simp only [lockVpu_free hlock']
          exact hstored.locked.unlockVpu
  · exact h

theorem ApiCall.run_grown {v : Vpu} (h : v.Grown) (c : ApiCall) : (c.run v).1.Grown := by
  cases c with
  | decOpen initialized param => exact vpuDecOpen_grown h initialized param
  | decSetEscSeqInit handle escape =>
    exact h.onInstance fun _ => h.underLock fun _ hw => hw.unlockVpu
  | decGetInitialInfo handle info seq =>
    apply h.onInstance
    intro i
    split
    · exact h
    split
    · exact h
    apply h.underLock
    intro w hw
    split
    · exact hw.unlockVpu
    simp only
    split_ifs
    · exact (hw.bitIssueCommand _).unlockVpu
    · exact (hw.bitIssueCommand _).unlockVpu
    · exact (hw.bitIssueCommand _).unlockVpu.storeInst _
  | decRegisterFrameBuffer handle bufArray num stride =>
    apply h.onInstance
    intro i
    simp only
    split_ifs
    · exact h
    · exact h
    · exact h
    · exact h
    · exact h
    · exact h.storeInst _
    · exact (h.storeInst _).underLock fun _ hw => (hw.bitIssueCommand _).unlockVpu
  | decStartOneFrame handle =>
    apply h.onInstance
    intro i
    split
    · exact h
    · exact h.underLock fun _ hw => (hw.bitIssueCommand _).setPendingInst _
  | decGetOutputInfo handle info =>
    apply h.onInstance
    intro i
    split_ifs
    · exact h
    · exact h
    · exact h
    · exact (h.setPendingInst _).unlockVpu
  | decClrDispFlag handle index =>
    apply h.onInstance
    intro i
    simp only
    split_ifs
    · exact h
    · exact h
    · exact h.underLock fun _ hw => hw.unlockVpu
  | decBitBufferFlush handle =>
    apply h.onInstance
    intro i
    split
    · exact h
    · exact h.underLock fun _ hw => (hw.bitIssueCommand _).unlockVpu
  | decClose handle =>
    apply h.onInstance
    intro i
    simp only
    -- an abandoned frame is dropped first; either way the instance is freed under the lock
    have hclose : ∀ w : Vpu, w.Grown → ((freeCodecInstance (if
        (w.semap.codecInstPool i).initialInfoObtained then w.bitIssueCommand i .seqEnd else w)
        i).unlockVpu).Grown := by
      intro w hw
      split
      · exact ((hw.bitIssueCommand _).storeInst _).unlockVpu
      · exact (hw.storeInst _).unlockVpu
    split
    · exact (h.setPendingInst _).unlockVpu.underLock hclose
    · exact h.underLock hclose

/-! ## What a call does to the agreement -/

/-- The ways a completed call can change the lock and the pending instance. -/
inductive CallEffect (s s' : Semaphore) (ret : RetCode) : ApiCall → Prop
  /-- Neither changes. -/
  | same {c : ApiCall} (hsame : SameLock s s')
      (hcollect : ∀ handle info, c = .decGetOutputInfo handle info → ret ≠ .success) :
      CallEffect s s' ret c
  /-- A frame is started. -/
  | start {i : Inst} (hret : ret = .success) (hbusy : Busy i s')
      (hfree : s'.freeUnlocks = s.freeUnlocks) : CallEffect s s' ret (.decStartOneFrame (some i))
  /-- The output of the frame in progress is collected. -/
  | collect {i : Inst} {info : Bool} (hpending : s.pendingInst = some i) (hidle : Idle s')
      (hfree : s'.freeUnlocks = s.freeUnlocks) :
      CallEffect s s' ret (.decGetOutputInfo (some i) info)
  /-- The frame in progress is dropped with its instance. -/
  | close {i : Inst} (hidle : Idle s') (hfree : s'.freeUnlocks = s.freeUnlocks) :
      CallEffect s s' ret (.decClose (some i))

theorem busy_of_agrees {s : Semaphore} {i : Inst}
    (hagree : s.apiLock = true ↔ s.pendingInst ≠ none) (hpending : s.pendingInst = some i) :
    Busy i s :=
  ⟨hagree.mpr (by simp [hpending]), hpending⟩

theorem ApiCall.run_effect {v : Vpu}
    (hagree : v.semap.apiLock = true ↔ v.semap.pendingInst ≠ none) (c : ApiCall) :
    CallEffect v.semap (c.run v).1.semap (c.run v).2 c := by
  cases c with
  | decOpen initialized param =>
    exact .same (vpuDecOpen_same v initialized param) (by simp)
  | decSetEscSeqInit handle escape =>
    exact .same (vpuDecSetEscSeqInit_same v handle escape) (by simp)
  | decGetInitialInfo handle info seq =>
    exact .same (vpuDecGetInitialInfo_same v handle info seq) (by simp)
  | decRegisterFrameBuffer handle bufArray num stride =>
    exact .same (vpuDecRegisterFrameBuffer_same v handle bufArray num stride) (by simp)
  | decStartOneFrame handle =>
    obtain ⟨-, hsame⟩ | ⟨i, rfl, hret, -, hbusy, hfree⟩ := vpuDecStartOneFrame_cases v handle
    · exact .same hsame (by simp)
    · exact .start hret hbusy hfree
  | decGetOutputInfo handle info =>
    obtain ⟨hret, heq⟩ | ⟨i, rfl, hpending, heq⟩ := vpuDecGetOutputInfo_cases v handle info
    · refine .same ?_ (fun _ _ _ => hret)
      simp only [ApiCall.run, heq]
      exact SameLock.refl _
    · obtain ⟨hidle, hfree⟩ := abandon_idle (busy_of_agrees hagree hpending)
      refine .collect hpending ?_ ?_
      · simp only [ApiCall.run, heq]
        exact hidle
      · simp only [ApiCall.run, heq]
        exact hfree
  | decClrDispFlag handle index =>
    exact .same (vpuDecClrDispFlag_same v handle index) (by simp)
  | decBitBufferFlush handle => exact .same (vpuDecBitBufferFlush_same v handle) (by simp)
  | decClose handle =>
    by_cases hother : checkDecInstanceValidity v.semap handle = .success →
        v.semap.pendingInst ≠ handle
    · exact .same (vpuDecClose_same v handle hother) (by simp)
    · push Not at hother
      obtain ⟨hvalid, hpending⟩ := hother
      obtain ⟨i, rfl⟩ := exists_of_valid hvalid
      have hclosed := vpuDecClose_busy (busy_of_agrees hagree hpending) hvalid
      exact .close hclosed.1 hclosed.2.2

/-! ## What a start does -/

theorem foldl_freeCodecInstance (is : List Inst) (v : Vpu) :
    SameLock v.semap (is.foldl freeCodecInstance v).semap ∧
      (v.Grown → (is.foldl freeCodecInstance v).Grown) := by
  induction is generalizing v with
  | nil => exact ⟨SameLock.refl _, id⟩
  | cons i is ih =>
    obtain ⟨hsame, hgrown⟩ := ih (freeCodecInstance v i)
    exact ⟨(Vpu.storeInst_same _).trans hsame, fun h => hgrown (h.storeInst _)⟩

/-- A new process frees the mutex and the pool, and keeps the pending instance. -/
theorem vpuSemaphoreOpen_spec (v : Vpu) :
    SameLock { v.semap with apiLock := false } (vpuSemaphoreOpen v).semap ∧
      (v.Grown → (vpuSemaphoreOpen v).Grown) := by
  unfold vpuSemaphoreOpen
  obtain ⟨hsame, hgrown⟩ := foldl_freeCodecInstance (List.finRange maxNumInstance)
    (v.store fun s => { s with apiLock := false })
  refine ⟨⟨hsame.apiLock, hsame.pendingInst, hsame.freeUnlocks⟩, fun h => ?_⟩
  exact (hgrown (h.store le_rfl)).store le_rfl

theorem vpuInit_spec (v : Vpu) (initialized download : Bool) :
    SameLock { v.semap with apiLock := false } (vpuInit v initialized download).1.semap ∧
      (v.Grown → (vpuInit v initialized download).1.Grown) ∧
      ((vpuInit v initialized download).2 = .success ↔ (initialized || download) = true) := by
  obtain ⟨hsame, hgrown⟩ := vpuSemaphoreOpen_spec v
  have hbalanced : Balanced fun v : Vpu =>
      if !initialized && !download then (v.unlockVpu, RetCode.failure)
      else (v.unlockVpu, .success) := by
    intro w hlock
    simp only
    split
    · exact balanced_unlock .failure w hlock
    · exact balanced_unlock .success w hlock
  refine ⟨hsame.trans (hbalanced.underLock _), fun h => ?_, ?_⟩
  · apply (hgrown h).underLock
    intro w hw
    split
    · exact hw.unlockVpu
    · exact hw.unlockVpu
  · unfold vpuInit
    rw [Vpu.underLock_free hsame.apiLock]
    cases initialized <;> cases download <;> simp

/-- Initialisation finds the lock free, since it has just reset it. -/
theorem vpuInit_selfWaits (v : Vpu) (initialized download : Bool) :
    (vpuInit v initialized download).1.selfWaits = v.selfWaits := by
  have hfold : ∀ (is : List Inst) (w : Vpu),
      (is.foldl freeCodecInstance w).selfWaits = w.selfWaits := by
    intro is
    induction is with
    | nil => exact fun w => rfl
    | cons i is ih => exact fun w => ih (freeCodecInstance w i)
  have hopen : (vpuSemaphoreOpen v).selfWaits = v.selfWaits :=
    hfold _ (v.store fun s => { s with apiLock := false })
  unfold vpuInit
  rw [Vpu.underLock_free (vpuSemaphoreOpen_spec v).1.apiLock]
  split
  · exact hopen
  · exact hopen

/-! ## Runs -/

theorem Started.cons {i : Inst} {calls : List (ApiCall × RetCode)} {c : ApiCall} {ret : RetCode}
    (h : Started i calls)
    (hcollect : ∀ handle info, c = .decGetOutputInfo handle info → ret ≠ .success) :
    Started i ((c, ret) :: calls) := by
  obtain ⟨newer, older, hcalls, hnew⟩ := h
  refine ⟨(c, ret) :: newer, older, by rw [hcalls, List.cons_append], ?_⟩
  intro handle info hmem
  rcases List.mem_cons.mp hmem with heq | hmem
  · obtain ⟨hc, hret⟩ := Prod.mk.injEq _ _ _ _ ▸ heq
    exact hcollect handle info hc.symm hret.symm
  · exact hnew handle info hmem

/-- The agreement, and the start that each pending instance goes back to. -/
structure SystemInv (s : System) : Prop where
  agreement : Agreement s
  started : ∀ calls i, s.calls = some calls → s.semap.pendingInst = some i → Started i calls

theorem SystemInv.boot : SystemInv System.boot :=
  ⟨⟨fun h => absurd rfl h, rfl, by simp [System.boot]⟩, by simp [System.boot]⟩

/-- A process that has just started, or none at all. -/
theorem SystemInv.fresh {s : Semaphore} {calls : Option (List (ApiCall × RetCode))}
    (hcalls : calls = none ∨ calls = some [] ∧ Idle s) (hfree : s.freeUnlocks = 0) :
    SystemInv ⟨s, calls⟩ := by
  rcases hcalls with rfl | ⟨rfl, hidle⟩
  · exact ⟨⟨fun h => absurd rfl h, hfree, by simp⟩, by simp⟩
  · refine ⟨⟨fun _ => by simp [hidle.apiLock, hidle.pendingInst], hfree, by simp⟩, ?_⟩
    intro calls i _ hpending
    rw [hidle.pendingInst] at hpending
    simp at hpending

/-- The new call is the first one, or an older one is meant. -/
theorem output_cons {c : ApiCall} {ret : RetCode} {calls newer older : List (ApiCall × RetCode)}
    {handle : DecHandle} {info : Bool}
    (hcalls : (c, ret) :: calls = newer ++ (.decGetOutputInfo handle info, .success) :: older) :
    (c = .decGetOutputInfo handle info ∧ ret = .success ∧ older = calls) ∨
      ∃ newer', calls = newer' ++ (.decGetOutputInfo handle info, .success) :: older := by
  cases newer with
  | nil =>
    simp only [List.nil_append, List.cons.injEq, Prod.mk.injEq] at hcalls
    exact .inl ⟨hcalls.1.1, hcalls.1.2, hcalls.2.symm⟩
  | cons x newer' =>
    simp only [List.cons_append, List.cons.injEq] at hcalls
    exact .inr ⟨newer', hcalls.2⟩

theorem SystemInv.call {s : System} {calls : List (ApiCall × RetCode)} (h : SystemInv s)
    (hlive : s.calls = some calls) (c : ApiCall) :
    SystemInv ⟨(c.run (mapped s.semap)).1.semap, some ((c, (c.run (mapped s.semap)).2) :: calls)⟩ := by
  have hagree := h.agreement.lock_iff (by simp [hlive])
  have heffect := ApiCall.run_effect (v := mapped s.semap) hagree c
  generalize c.run (mapped s.semap) = result at heffect ⊢
  obtain ⟨v, ret⟩ := result
  have hfree := h.agreement.held_unlock
  -- an output collected earlier is still covered by its start
  have hold : ∀ newer older handle info,
      calls = newer ++ (.decGetOutputInfo handle info, .success) :: older →
        ∃ i, handle = some i ∧ Started i older :=
    fun newer older handle info hcalls => h.agreement.output newer older handle info (hcalls ▸ hlive)
  simp only at heffect ⊢
  cases heffect with
  | same hsame hcollect =>
    refine ⟨⟨fun _ => ?_, hsame.freeUnlocks.trans hfree, ?_⟩, ?_⟩
    · rw [hsame.apiLock, hsame.pendingInst]
      exact hagree
    · intro newer older handle info hcalls
      rcases output_cons (Option.some.inj hcalls) with ⟨hc, hret, -⟩ | ⟨newer', hcalls'⟩
      · exact absurd hret (hcollect handle info hc)
      · exact hold newer' older handle info hcalls'
    · intro calls' i hcalls hpending
      rw [← Option.some.inj hcalls]
      exact (h.started calls i hlive (hsame.pendingInst ▸ hpending)).cons hcollect
  | start hret hbusy hfree' =>
    refine ⟨⟨fun _ => by simp [hbusy.apiLock, hbusy.pendingInst], hfree'.trans hfree, ?_⟩, ?_⟩
    · intro newer older handle info hcalls
      rcases output_cons (Option.some.inj hcalls) with ⟨hc, -, -⟩ | ⟨newer', hcalls'⟩
      · simp at hc
      · exact hold newer' older handle info hcalls'
    · intro calls' j hcalls hpending
      rw [hbusy.pendingInst] at hpending
      rw [← Option.some.inj hcalls, ← Option.some.inj hpending, hret]
      exact ⟨[], calls, rfl, by simp⟩
  | collect hpending hidle hfree' =>
    refine ⟨⟨fun _ => by simp [hidle.apiLock, hidle.pendingInst], hfree'.trans hfree, ?_⟩, ?_⟩
    · intro newer older handle info hcalls
      rcases output_cons (Option.some.inj hcalls) with ⟨hc, -, rfl⟩ | ⟨newer', hcalls'⟩
      · simp only [ApiCall.decGetOutputInfo.injEq] at hc
        exact ⟨_, hc.1.symm, h.started _ _ hlive hpending⟩
      · exact hold newer' older handle info hcalls'
    · intro calls' j _ hpending'
      rw [hidle.pendingInst] at hpending'
      simp at hpending'
  | close hidle hfree' =>
    refine ⟨⟨fun _ => by simp [hidle.apiLock, hidle.pendingInst], hfree'.trans hfree, ?_⟩, ?_⟩
    · intro newer older handle info hcalls
      rcases output_cons (Option.some.inj hcalls) with ⟨hc, -, -⟩ | ⟨newer', hcalls'⟩
      · simp at hc
      · exact hold newer' older handle info hcalls'
    · intro calls' j _ hpending'
      rw [hidle.pendingInst] at hpending'
      simp at hpending'

theorem System.step_start {s : System} (hdead : s.calls = none) (initialized download : Bool) :
    s.step (.start initialized download) =
      ⟨(vpuInit (mapped s.semap) initialized download).1.semap,
        if (initialized || download) = true then some [] else none⟩ := by
  obtain ⟨-, -, hret⟩ := vpuInit_spec (mapped s.semap) initialized download
  simp only [System.step, hdead]
  split
  · rename_i v heq
    rw [heq] at hret ⊢
    rw [if_pos (hret.mp rfl)]
  · rename_i v ret hne heq
    rw [heq] at hret ⊢
    rw [if_neg fun hok => hne (hret.mpr hok)]

theorem SystemInv.step {s : System} (h : SystemInv s) {a : Action} (hclean : StartsClean s a) :
    SystemInv (s.step a) := by
  have hfree := h.agreement.held_unlock
  -- A start needs that there is no process, and a call that there is one.
  cases a with
  | start initialized download =>
    cases hlive : s.calls with
    | some calls => simpa only [System.step, hlive] using h
    | none =>
      obtain ⟨hsame, -, -⟩ := vpuInit_spec (mapped s.semap) initialized download
      rw [System.step_start hlive]
      refine SystemInv.fresh ?_ (hsame.freeUnlocks.trans hfree)
      split
      · rename_i hok
        have hpending := hclean initialized download rfl hlive hok
        exact .inr ⟨rfl, hsame.apiLock, hsame.pendingInst.trans hpending⟩
      · exact .inl rfl
  | startKilled initialized download k =>
    cases hlive : s.calls with
    | some calls => simpa only [System.step, hlive] using h
    | none =>
      obtain ⟨hsame, hgrown, -⟩ := vpuInit_spec (mapped s.semap) initialized download
      simp only [System.step, hlive]
      exact SystemInv.fresh (.inl rfl)
        ((hgrown (mapped_grown _)).after (hsame.freeUnlocks.trans hfree) k)
  | call c =>
    cases hlive : s.calls with
    | none => simpa only [System.step, hlive] using h
    | some calls =>
      have hcall := h.call hlive c
      simp only [System.step, hlive]
      exact hcall
  | callKilled c k =>
    cases hlive : s.calls with
    | none => simpa only [System.step, hlive] using h
    | some calls =>
      simp only [System.step, hlive]
      exact SystemInv.fresh (.inl rfl)
        ((ApiCall.run_grown (mapped_grown _) c).after (h.call hlive c).agreement.held_unlock k)

/-- A start on a memory that names a pending instance breaks the agreement: the mutex is reset and
the pending instance is not. -/
theorem startsClean_of_agreement {s : System} {a : Action} (h : Agreement (s.step a)) :
    StartsClean s a := by
  rintro initialized download rfl hdead hok
  obtain ⟨hsame, -, -⟩ := vpuInit_spec (mapped s.semap) initialized download
  rw [System.step_start hdead, if_pos hok] at h
  have hiff := h.lock_iff (by simp)
  rw [hsame.apiLock, hsame.pendingInst] at hiff
  simpa [mapped] using hiff

/-- **Lock and pending instance across processes.** In a run of processes that are killed at any
point and started again, the lock and the pending instance agree throughout exactly when every
process that comes up finds no pending instance in the memory it maps. -/
theorem lock_agrees_across_processes (acts : List Action) :
    (∀ n, Agreement (stateAt System.step System.boot acts n)) ↔
      Along System.step System.boot acts StartsClean := by
  apply forall_good_iff_along SystemInv.boot
  · intro s a h hclean
    exact h.step hclean
  · intro s h
    exact h.agreement
  · intro s a _ hgood
    exact startsClean_of_agreement hgood

/-- A process killed with a frame in progress, and its successor: it opens a decoder and asks for
an output without having started a frame, then closes. -/
def killedInFrame : List Action :=
  [.start false true,
    .call (.decOpen true (some ⟨.mpeg4, 0, 1048576, 0⟩)),
    .call (.decGetInitialInfo (some 0) true ⟨false, true, 352 * 1024 + 288, 3, 0, 0⟩),
    .call (.decRegisterFrameBuffer (some 0) true 7 352),
    .call (.decStartOneFrame (some 0)),
    .callKilled (.decGetOutputInfo (some 0) true) 0,
    .start true true,
    .call (.decOpen true (some ⟨.mpeg4, 0, 1048576, 0⟩)),
    .call (.decClose (some 0))]

/-- After the restart the mutex is free while the pending instance is set, and the close unlocks
the free mutex. -/
theorem lock_disagrees_after_kill :
    ¬ (∀ n, Agreement (stateAt System.step System.boot killedInFrame n)) ∧
      (stateAt System.step System.boot killedInFrame 7).semap.apiLock = false ∧
      (stateAt System.step System.boot killedInFrame 7).semap.pendingInst = some 0 ∧
      (stateAt System.step System.boot killedInFrame 9).semap.freeUnlocks = 1 := by
  have hlock : (stateAt System.step System.boot killedInFrame 7).semap.apiLock = false := by
    decide +kernel
  have hpending : (stateAt System.step System.boot killedInFrame 7).semap.pendingInst = some 0 := by
    decide +kernel
  have hlive : (stateAt System.step System.boot killedInFrame 7).calls ≠ none := by
    decide +kernel
  refine ⟨fun hall => ?_, hlock, hpending, by decide +kernel⟩
  have hiff := (hall 7).lock_iff hlive
  rw [hlock, hpending] at hiff
  simp at hiff

end Lib
end ToonVpu
