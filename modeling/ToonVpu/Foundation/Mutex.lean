import Mathlib.Logic.Function.Basic
import ToonVpu.Foundation.Runs

/-!
# Mutex — processes that share data under one lock

Every process has a place in its program, of type `π`.  What it does next is a move: it goes on
outside of the lock, takes it, works inside, or gives it back.  The environment, such as a device and
the handler of its interrupt, changes the data at any moment.

A proof about such a system is one about the process inside: `Rules` has an obligation for each kind
of move and one for the environment, and `Rules.stateAt` carries them through every interleaving.
-/

namespace ToonVpu
namespace Foundation
namespace Mutex

open Runs

/-! ## Programs -/

inductive Move (π σ : Type*)
  /-- Nothing happens. -/
  | stay
  /-- Outside of the lock. -/
  | goto (q : π)
  /-- Taking the lock; a process that finds it taken tries again. -/
  | acquire (q : π) (d : σ)
  | work (q : π) (d : σ)
  | release (q : π) (d : σ)

/-- A move is in order at a place that is inside of the lock, or outside. -/
def Move.Fits {π σ : Type*} (inside : π → Bool) (here : Bool) : Move π σ → Prop
  | .stay => True
  | .goto q => here = false ∧ inside q = false
  | .acquire q _ => here = false ∧ inside q = true
  | .work q _ => here = true ∧ inside q = true
  | .release q _ => here = true ∧ inside q = false

/-- `α` are the occasions on which a process moves, `ε` the events of the environment. -/
structure Program (π α ε σ : Type*) where
  inside : π → Bool
  move : ℕ → π → α → σ → Move π σ
  env : ε → σ → σ
  fits : ∀ p q a d, (move p q a d).Fits inside (inside q)

structure Shared (π σ : Type*) where
  pc : ℕ → π
  lock : Option ℕ
  data : σ

inductive Act (α ε : Type*)
  | proc (p : ℕ) (a : α)
  | env (e : ε)
  deriving DecidableEq, Repr

section Step

variable {π α ε σ : Type*}

def Shared.perform (s : Shared π σ) (p : ℕ) : Move π σ → Shared π σ
  | .stay => s
  | .goto q => { s with pc := Function.update s.pc p q }
  | .acquire q d => if s.lock = none then ⟨Function.update s.pc p q, some p, d⟩ else s
  | .work q d => ⟨Function.update s.pc p q, s.lock, d⟩
  | .release q d => ⟨Function.update s.pc p q, none, d⟩

def Program.step (P : Program π α ε σ) (s : Shared π σ) : Act α ε → Shared π σ
  | .proc p a => s.perform p (P.move p (s.pc p) a s.data)
  | .env e => { s with data := P.env e s.data }

/-- All processes are at `q`, and nobody has the lock. -/
def Shared.init (q : π) (d : σ) : Shared π σ := ⟨fun _ => q, none, d⟩

end Step

/-! ## The rule of the lock -/

section Rule

variable {π α ε σ : Type*}

/-- What is to be shown of `free`, which is true of the data while nobody has the lock, of `held`,
which is true of them and of the place of the process that has it, and of `out`, which is true of the
places of the others. -/
structure Rules (P : Program π α ε σ) (free : σ → Prop) (held : ℕ → π → σ → Prop)
    (out : ℕ → π → Prop) : Prop where
  goto : ∀ {p q a d q'}, out p q → P.move p q a d = .goto q' → out p q'
  acquire : ∀ {p q a d q' d'}, out p q → free d → P.move p q a d = .acquire q' d' → held p q' d'
  work : ∀ {p q a d q' d'}, held p q d → P.move p q a d = .work q' d' → held p q' d'
  release : ∀ {p q a d q' d'}, held p q d → P.move p q a d = .release q' d' → free d' ∧ out p q'
  env_free : ∀ {e d}, free d → free (P.env e d)
  env_held : ∀ {p q e d}, held p q d → held p q (P.env e d)

structure Inv (P : Program π α ε σ) (free : σ → Prop) (held : ℕ → π → σ → Prop)
    (out : ℕ → π → Prop) (s : Shared π σ) : Prop where
  guarded : ∀ p, P.inside (s.pc p) = true ↔ s.lock = some p
  free : s.lock = none → free s.data
  held : ∀ p, s.lock = some p → held p (s.pc p) s.data
  out : ∀ p, P.inside (s.pc p) = false → out p (s.pc p)

variable {P : Program π α ε σ} {free : σ → Prop} {held : ℕ → π → σ → Prop} {out : ℕ → π → Prop}
  {s : Shared π σ} {p : ℕ} {a : α} {q : π} {d : σ}

/-- Nobody else is inside. -/
theorem Inv.alone (h : Inv P free held out s) {p' : ℕ} (hp : P.inside (s.pc p) = true)
    (hp' : P.inside (s.pc p') = true) : p' = p :=
  Option.some.inj (((h.guarded p').mp hp').symm.trans ((h.guarded p).mp hp))

theorem Inv.outside (h : Inv P free held out s) (hp : P.inside (s.pc p) = false) :
    s.lock ≠ some p := by
  intro hlock
  rw [(h.guarded p).mpr hlock] at hp
  cases hp

/-- The other processes stay where they are. -/
theorem Inv.move_out (h : Inv P free held out s) (hq : P.inside q = false → out p q) :
    ∀ p', P.inside (Function.update s.pc p q p') = false → out p' (Function.update s.pc p q p') := by
  intro p' hin
  by_cases heq : p' = p
  · subst heq
    rw [Function.update_self] at hin ⊢
    exact hq hin
  · rw [Function.update_of_ne heq] at hin ⊢
    exact h.out p' hin

theorem Inv.perform_goto (hrules : Rules P free held out) (h : Inv P free held out s)
    (hmove : P.move p (s.pc p) a s.data = .goto q) :
    Inv P free held out { s with pc := Function.update s.pc p q } := by
  have hfits := P.fits p (s.pc p) a s.data
  rw [hmove] at hfits
  obtain ⟨hhere, hthere⟩ := hfits
  have hlock := h.outside hhere
  refine ⟨?_, h.free, ?_, h.move_out fun _ => hrules.goto (h.out p hhere) hmove⟩
  · intro p'
    by_cases heq : p' = p
    · subst heq
      simp [hthere, hlock]
    · simp [Function.update_of_ne heq, h.guarded p']
  · intro p' hp'
    have hne : p' ≠ p := fun heq => hlock (heq ▸ hp')
    simpa [Function.update_of_ne hne] using h.held p' hp'

theorem Inv.perform_acquire (hrules : Rules P free held out) (h : Inv P free held out s)
    (hlock : s.lock = none) (hmove : P.move p (s.pc p) a s.data = .acquire q d) :
    Inv P free held out ⟨Function.update s.pc p q, some p, d⟩ := by
  have hfits := P.fits p (s.pc p) a s.data
  rw [hmove] at hfits
  obtain ⟨hhere, hthere⟩ := hfits
  refine ⟨?_, fun hnone => absurd hnone (Option.some_ne_none p), ?_, h.move_out fun hout => ?_⟩
  · intro p'
    by_cases heq : p' = p
    · subst heq
      simp [hthere]
    · have hother : P.inside (s.pc p') ≠ true := by
        rw [ne_eq, h.guarded p', hlock]
        exact (Option.some_ne_none p').symm
      simp [Function.update_of_ne heq, hother, Ne.symm heq]
  · intro p' hp'
    obtain rfl := Option.some.inj hp'
    simpa using hrules.acquire (h.out p hhere) (h.free hlock) hmove
  · rw [hthere] at hout
    cases hout

theorem Inv.perform_work (hrules : Rules P free held out) (h : Inv P free held out s)
    (hmove : P.move p (s.pc p) a s.data = .work q d) :
    Inv P free held out ⟨Function.update s.pc p q, s.lock, d⟩ := by
  have hfits := P.fits p (s.pc p) a s.data
  rw [hmove] at hfits
  obtain ⟨hhere, hthere⟩ := hfits
  have hlock := (h.guarded p).mp hhere
  refine ⟨?_, fun hnone => ?_, ?_, h.move_out fun hout => ?_⟩
  · intro p'
    by_cases heq : p' = p
    · subst heq
      simp [hthere, hlock]
    · simp [Function.update_of_ne heq, h.guarded p']
  · rw [hlock] at hnone
    cases hnone
  · intro p' hp'
    obtain rfl := Option.some.inj (hlock.symm.trans hp')
    simpa using hrules.work (h.held p hlock) hmove
  · rw [hthere] at hout
    cases hout

theorem Inv.perform_release (hrules : Rules P free held out) (h : Inv P free held out s)
    (hmove : P.move p (s.pc p) a s.data = .release q d) :
    Inv P free held out ⟨Function.update s.pc p q, none, d⟩ := by
  have hfits := P.fits p (s.pc p) a s.data
  rw [hmove] at hfits
  obtain ⟨hhere, hthere⟩ := hfits
  have hlock := (h.guarded p).mp hhere
  obtain ⟨hfree, hout⟩ := hrules.release (h.held p hlock) hmove
  refine ⟨?_, fun _ => hfree, fun p' hp' => absurd hp'.symm (Option.some_ne_none p'),
    h.move_out fun _ => hout⟩
  intro p'
  by_cases heq : p' = p
  · subst heq
    simp [hthere]
  · have hother : P.inside (s.pc p') ≠ true := fun hin => heq (h.alone hhere hin)
    simp [Function.update_of_ne heq, hother]

theorem Inv.step (hrules : Rules P free held out) (h : Inv P free held out s) (act : Act α ε) :
    Inv P free held out (P.step s act) := by
  cases act with
  | env e =>
    exact ⟨h.guarded, fun hlock => hrules.env_free (h.free hlock),
      fun p hlock => hrules.env_held (h.held p hlock), h.out⟩
  | proc p a =>
    simp only [Program.step]
    cases hmove : P.move p (s.pc p) a s.data with
    | stay => exact h
    | goto q => exact h.perform_goto hrules hmove
    | work q d => exact h.perform_work hrules hmove
    | release q d => exact h.perform_release hrules hmove
    | acquire q d =>
      simp only [Shared.perform]
      split
      · rename_i hlock
        exact h.perform_acquire hrules hlock hmove
      · exact h

theorem Inv.init (hq : P.inside q = false) (hout : ∀ p, out p q) (hd : free d) :
    Inv P free held out (Shared.init q d) :=
  ⟨fun p => by simp [Shared.init, hq], fun _ => hd,
    fun p hp => absurd hp.symm (Option.some_ne_none p), fun p _ => hout p⟩

/-- Whatever the processes and the environment do and in which order. -/
theorem Rules.stateAt (hrules : Rules P free held out) (hinit : Inv P free held out s)
    (acts : List (Act α ε)) (n : ℕ) : Inv P free held out (stateAt P.step s acts n) :=
  invariant_of_next hinit (fun _ act hinv (_ : True) => hinv.step hrules act)
    (fun _ _ _ _ => trivial) n

end Rule

/-! ## How long the lock is held -/

section Progress

variable {π α ε σ : Type*}

def Move.idle : Move π σ → Bool
  | .stay => true
  | _ => false

/-- The process `p` moves. -/
def Program.works (P : Program π α ε σ) (p : ℕ) (s : Shared π σ) : Act α ε → Bool
  | .proc p' a => p' = p && !(P.move p (s.pc p) a s.data).idle
  | .env _ => false

/-- How often it moves in a run. -/
def Program.worked (P : Program π α ε σ) (p : ℕ) (s : Shared π σ) : List (Act α ε) → ℕ
  | [] => 0
  | act :: acts => (if P.works p s act then 1 else 0) + P.worked p (P.step s act) acts

/-- Work inside of the lock comes to its end. -/
def Program.Ranked (P : Program π α ε σ) (rank : π → ℕ) : Prop :=
  ∀ p q a d q' d', P.move p q a d = .work q' d' → rank q' < rank q

variable {P : Program π α ε σ} {rank : π → ℕ} {s : Shared π σ} {p : ℕ} {act : Act α ε}

theorem perform_other {p' : ℕ} (hne : p' ≠ p) (m : Move π σ) : (s.perform p' m).pc p = s.pc p := by
  cases m with
  | stay => rfl
  | acquire q d =>
    simp only [Shared.perform]
    split
    · exact Function.update_of_ne hne.symm q s.pc
    · rfl
  | goto q | work q d | release q d => exact Function.update_of_ne hne.symm q s.pc

/-- One action of a run in which `p` keeps the lock. -/
theorem Program.Ranked.step (hrank : P.Ranked rank) (hin : P.inside (s.pc p) = true)
    (hkeeps : (P.step s act).lock = some p) :
    P.inside ((P.step s act).pc p) = true ∧
      (if P.works p s act then 1 else 0) + rank ((P.step s act).pc p) ≤ rank (s.pc p) := by
  cases act with
  | env e => exact ⟨hin, by simp [Program.works, Program.step]⟩
  | proc p' a =>
    simp only [Program.step] at hkeeps ⊢
    by_cases hp : p' = p
    · subst hp
      have hfits := P.fits p' (s.pc p') a s.data
      rw [hin] at hfits
      cases hmove : P.move p' (s.pc p') a s.data with
      | stay => exact ⟨hin, by simp [Program.works, Shared.perform, hmove, Move.idle]⟩
      | goto q =>
        rw [hmove] at hfits
        exact absurd hfits.1.symm Bool.false_ne_true
      | acquire q d =>
        rw [hmove] at hfits
        exact absurd hfits.1.symm Bool.false_ne_true
      | work q d =>
        rw [hmove] at hfits
        have hlt := hrank p' (s.pc p') a s.data q d hmove
        simp only [Program.works, Shared.perform, hmove, Move.idle, Function.update_self]
        exact ⟨hfits.2, by simpa [Nat.add_comm, Nat.succ_le_iff] using hlt⟩
      | release q d =>
        rw [hmove] at hkeeps
        cases hkeeps
    · rw [perform_other hp]
      exact ⟨hin, by simp [Program.works, hp]⟩

/-- A process that keeps the lock moves no more often than its rank says. -/
theorem Program.Ranked.worked_le (hrank : P.Ranked rank) (acts : List (Act α ε))
    (hin : P.inside (s.pc p) = true)
    (hkeeps : ∀ k ≤ acts.length, (stateAt P.step s acts k).lock = some p) :
    P.worked p s acts ≤ rank (s.pc p) := by
  induction acts generalizing s with
  | nil => exact Nat.zero_le _
  | cons act acts ih =>
    have hnext : ∀ k ≤ acts.length, (stateAt P.step (P.step s act) acts k).lock = some p :=
      fun k hk => hkeeps (k + 1) (Nat.succ_le_succ hk)
    obtain ⟨hin', hle⟩ := hrank.step hin (by simpa using hnext 0 (Nat.zero_le _))
    have hrest := ih hin' hnext
    simp only [Program.worked]
    omega

theorem Program.Ranked.inside_of_keeps (hrank : P.Ranked rank) (acts : List (Act α ε))
    (hin : P.inside (s.pc p) = true)
    (hkeeps : ∀ k ≤ acts.length, (stateAt P.step s acts k).lock = some p) :
    P.inside ((stateAt P.step s acts acts.length).pc p) = true := by
  induction acts generalizing s with
  | nil => simpa using hin
  | cons act acts ih =>
    have hnext : ∀ k ≤ acts.length, (stateAt P.step (P.step s act) acts k).lock = some p :=
      fun k hk => hkeeps (k + 1) (Nat.succ_le_succ hk)
    exact ih (hrank.step hin (by simpa using hnext 0 (Nat.zero_le _))).1 hnext

end Progress

end Mutex
end Foundation
end ToonVpu
