import ToonVpu.Lib.Semaphore

/-!
# Commands — what the library tells the BIT processor

Each call of the decoder issues one kind of command, or none.  The processor works on one command at
a time and sets its busy flag while it does; `BitIssueCommand` does not look at the flag.
-/

namespace ToonVpu
namespace Lib

/-- From `v` to `v'` the library issued `cmds`. -/
def Issues (v v' : Vpu) (cmds : List BitCommand) : Prop :=
  v'.issued.map Prod.snd = v.issued.map Prod.snd ++ cmds

/-- Only commands of this kind were issued. -/
def IssuesOnly (allowed : BitCommand → Prop) (v v' : Vpu) : Prop :=
  ∃ cmds, Issues v v' cmds ∧ ∀ cmd ∈ cmds, allowed cmd

section Calls

variable {allowed : BitCommand → Prop} {v v' v'' : Vpu} {handle : DecHandle}

theorem Issues.trans {cmds cmds' : List BitCommand} (h : Issues v v' cmds)
    (h' : Issues v' v'' cmds') : Issues v v'' (cmds ++ cmds') := by
  unfold Issues at *
  rw [h', h, List.append_assoc]

theorem IssuesOnly.of_same (h : v'.issued = v.issued) : IssuesOnly allowed v v' :=
  ⟨[], by simp [Issues, h], by simp⟩

theorem IssuesOnly.trans (h : IssuesOnly allowed v v') (h' : IssuesOnly allowed v' v'') :
    IssuesOnly allowed v v'' := by
  obtain ⟨cmds, hissues, hall⟩ := h
  obtain ⟨cmds', hissues', hall'⟩ := h'
  refine ⟨cmds ++ cmds', hissues.trans hissues', ?_⟩
  intro cmd hcmd
  rcases List.mem_append.mp hcmd with hcmd | hcmd
  · exact hall cmd hcmd
  · exact hall' cmd hcmd

theorem IssuesOnly.mono {allowed' : BitCommand → Prop} (h : IssuesOnly allowed v v')
    (himp : ∀ cmd, allowed cmd → allowed' cmd) : IssuesOnly allowed' v v' := by
  obtain ⟨cmds, hissues, hall⟩ := h
  exact ⟨cmds, hissues, fun cmd hcmd => himp cmd (hall cmd hcmd)⟩

theorem IssuesOnly.issue (i : Inst) (cmd : BitCommand) (h : allowed cmd)
    (hsame : v'.issued = (v.bitIssueCommand i cmd).issued) : IssuesOnly allowed v v' :=
  ⟨[cmd], by simp [Issues, Vpu.bitIssueCommand, hsame], by simpa using h⟩

@[simp] theorem lockVpu_issued (v : Vpu) : v.lockVpu.1.issued = v.issued := by
  unfold Vpu.lockVpu
  split <;> rfl

theorem issuesOnly_underLock {body : Vpu → Vpu × RetCode}
    (hbody : ∀ w : Vpu, IssuesOnly allowed w (body w).1) :
    IssuesOnly allowed v (v.underLock body).1 := by
  have hlock : IssuesOnly allowed v v.lockVpu.1 := .of_same (lockVpu_issued v)
  unfold Vpu.underLock
  generalize v.lockVpu = got at hlock ⊢
  obtain ⟨w, ok⟩ := got
  cases ok with
  | false => exact hlock
  | true => exact hlock.trans (hbody w)

theorem issuesOnly_onInstance {body : Inst → Vpu × RetCode}
    (hbody : ∀ i, IssuesOnly allowed v (body i).1) :
    IssuesOnly allowed v (onInstance v handle body).1 := by
  by_cases hvalid : checkDecInstanceValidity v.semap handle = .success
  · obtain ⟨i, rfl⟩ := exists_of_valid hvalid
    rw [onInstance_valid hvalid]
    exact hbody i
  · rw [onInstance_invalid hvalid]
    exact .of_same rfl

end Calls

/-! ## One lemma for each call -/

section Decoder

variable (v : Vpu) (handle : DecHandle)

theorem getCodecInstance_issued : (getCodecInstance v).1.issued = v.issued := by
  unfold getCodecInstance
  split <;> rfl

theorem vpuDecOpen_issued (initialized : Bool) (param : Option DecOpenParam) :
    (vpuDecOpen v initialized param).1.issued = v.issued := by
  unfold vpuDecOpen
  split
  · rfl
  split
  · rename_i _ _ pop _
    have hlock := lockVpu_issued v
    generalize v.lockVpu = got at hlock ⊢
    obtain ⟨w, ok⟩ := got
    cases ok with
    | false => exact hlock
    | true =>
      have hget := (getCodecInstance_issued w).trans hlock
      simp only
      generalize getCodecInstance w = instance' at hget ⊢
      obtain ⟨w', i⟩ := instance'
      cases i with
      | none => exact hget
      | some i =>
        have hlock' := (lockVpu_issued (w'.unlockVpu.storeInst i (openInst pop))).trans hget
        simp only
        generalize (w'.unlockVpu.storeInst i (openInst pop)).lockVpu = got' at hlock' ⊢
        obtain ⟨w'', ok'⟩ := got'
        cases ok' <;> exact hlock'
  · rfl

theorem vpuDecSetEscSeqInit_issues (allowed : BitCommand → Prop) (escape : ℤ) :
    IssuesOnly allowed v (vpuDecSetEscSeqInit v handle escape).1 :=
  issuesOnly_onInstance fun _ => issuesOnly_underLock fun _ => .of_same rfl

theorem vpuDecGetInitialInfo_issues (info : Bool) (seq : SeqInit) :
    IssuesOnly (· = .seqInit) v (vpuDecGetInitialInfo v handle info seq).1 := by
  refine issuesOnly_onInstance fun i => ?_
  split
  · exact .of_same rfl
  split
  · exact .of_same rfl
  refine issuesOnly_underLock fun w => ?_
  simp only
  split_ifs
  · exact .of_same rfl
  · exact .issue i .seqInit rfl rfl
  · exact .issue i .seqInit rfl rfl
  · exact .issue i .seqInit rfl rfl

theorem vpuDecRegisterFrameBuffer_issues (bufArray : Bool) (num stride : ℤ) :
    IssuesOnly (· = .setFrameBuf) v (vpuDecRegisterFrameBuffer v handle bufArray num stride).1 := by
  refine issuesOnly_onInstance fun i => ?_
  simp only
  split_ifs
  · exact .of_same rfl
  · exact .of_same rfl
  · exact .of_same rfl
  · exact .of_same rfl
  · exact .of_same rfl
  · exact .of_same rfl
  · refine IssuesOnly.trans (.of_same rfl) (issuesOnly_underLock fun w => ?_)
    exact .issue i .setFrameBuf rfl rfl

/-- A frame that is started is one command, and a failed start none. -/
theorem vpuDecStartOneFrame_issues :
    Issues v (vpuDecStartOneFrame v handle).1
      (if (vpuDecStartOneFrame v handle).2 = .success then [.picRun] else []) := by
  unfold vpuDecStartOneFrame
  by_cases hvalid : checkDecInstanceValidity v.semap handle = .success
  · obtain ⟨i, rfl⟩ := exists_of_valid hvalid
    rw [onInstance_valid hvalid]
    split
    · simp [Issues]
    · unfold Vpu.underLock Vpu.lockVpu
      cases v.semap.apiLock <;> simp [Issues, Vpu.bitIssueCommand, Vpu.setPendingInst, Vpu.store]
  · rw [onInstance_invalid hvalid, if_neg hvalid]
    simp [Issues]

theorem vpuDecGetOutputInfo_issued (info : Bool) :
    (vpuDecGetOutputInfo v handle info).1.issued = v.issued := by
  unfold vpuDecGetOutputInfo onInstance
  split
  · simp only
    split_ifs <;> rfl
  · rfl

theorem vpuDecBitBufferFlush_issues :
    IssuesOnly (· = .decBufFlush) v (vpuDecBitBufferFlush v handle).1 := by
  refine issuesOnly_onInstance fun i => ?_
  split
  · exact .of_same rfl
  · exact issuesOnly_underLock fun w => .issue i .decBufFlush rfl rfl

theorem vpuDecClrDispFlag_issues (allowed : BitCommand → Prop) (index : ℤ) :
    IssuesOnly allowed v (vpuDecClrDispFlag v handle index).1 := by
  refine issuesOnly_onInstance fun i => ?_
  simp only
  split_ifs
  · exact .of_same rfl
  · exact .of_same rfl
  · exact issuesOnly_underLock fun _ => .of_same rfl

theorem vpuDecClose_issues : IssuesOnly (· = .seqEnd) v (vpuDecClose v handle).1 := by
  refine issuesOnly_onInstance fun i => ?_
  have hdrop : IssuesOnly (· = .seqEnd) v
      (if v.semap.pendingInst = some i then (v.setPendingInst none).unlockVpu else v) := by
    split <;> exact .of_same rfl
  refine hdrop.trans (issuesOnly_underLock fun w => ?_)
  simp only
  split
  · exact .issue i .seqEnd rfl rfl
  · exact .of_same rfl

end Decoder

end Lib
end ToonVpu
