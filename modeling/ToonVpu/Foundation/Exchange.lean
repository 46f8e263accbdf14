import ToonVpu.Foundation.Blocks
import ToonVpu.Foundation.Pieces

/-!
# Exchange — a connection to a peer that answers

A write gives the peer some of what was asked for, and what the peer hears may make it answer; the
answers are read from a stream.

* `Peer`: how much of a write it takes, and what it does with it;
* `Exchange.writeAll`: writes until everything is taken, or one fails;
* `server`: a peer that answers one block after the other, `writeAll_server`: it answers a block that
  is written to it, in whatever pieces it takes it.
-/

namespace ToonVpu
namespace Foundation

universe u v

/-- The other side of a connection: how many elements it takes of the next write, where zero stands
for a write that fails, and what becomes of it and what it answers when it hears some. -/
structure Peer (α : Type u) (σ : Type v) where
  takes : σ → ℕ
  hears : σ → List α → σ × List α

/-- Whoever asks for the parts one after the other hears what is said to the whole. -/
structure Peer.Steady {α : Type u} {σ : Type v} (p : Peer α σ) : Prop where
  takes : ∀ s, 0 < p.takes s
  nil : ∀ s, p.hears s [] = (s, [])
  append : ∀ s xs ys, p.hears s (xs ++ ys) =
    ((p.hears (p.hears s xs).1 ys).1, (p.hears s xs).2 ++ (p.hears (p.hears s xs).1 ys).2)

/-- A connection: the peer, its answers that were not read yet, and what it has heard. -/
structure Exchange (α : Type u) (σ : Type v) where
  peer : σ
  inbox : Source α
  said : List α

namespace Exchange

variable {α : Type u} {σ : Type v} (p : Peer α σ) (x : Exchange α σ) (buf : List α)

/-- The peer hears some elements. -/
def tell : Exchange α σ :=
  { peer := (p.hears x.peer buf).1
    inbox := { x.inbox with rest := x.inbox.rest ++ (p.hears x.peer buf).2 }
    said := x.said ++ buf }

/-- A write returns how much was taken. -/
def write : ℕ × Exchange α σ :=
  let n := min (p.takes x.peer) buf.length
  if n = 0 then (0, x) else (n, x.tell p (buf.take n))

/-- The loop of writes. -/
def writeLoop : ℕ → Exchange α σ → List α → Bool × Exchange α σ
  | 0, x, _ => (false, x)
  | fuel + 1, x, buf =>
    if 0 < buf.length then
      match x.write p buf with
      | (0, x) => (false, x)
      | (n + 1, x) => writeLoop fuel x (buf.drop (n + 1))
    else
      (true, x)

/-- Writes until everything is taken; each takes an element or fails. -/
def writeAll : Bool × Exchange α σ := writeLoop p (buf.length + 1) x buf

/-! ## What the peer hears -/

variable {p x buf}

/-- A write fails, or some of the front is taken. -/
theorem write_cases (hbuf : 0 < buf.length) :
    (x.write p buf = (0, x) ∧ p.takes x.peer = 0) ∨
      ∃ n < buf.length, x.write p buf = (n + 1, x.tell p (buf.take (n + 1))) := by
  rcases Nat.eq_zero_or_pos (min (p.takes x.peer) buf.length) with hzero | hpos
  · refine .inl ⟨?_, by omega⟩
    simp only [write, hzero, if_true]
  · refine .inr ⟨min (p.takes x.peer) buf.length - 1, by omega, ?_⟩
    have hsucc : min (p.takes x.peer) buf.length - 1 + 1 = min (p.takes x.peer) buf.length := by
      omega
    rw [hsucc, write]
    exact if_neg (by omega)

/-- The peer hears a front of what is written, and all of it exactly when the writes succeed. -/
theorem writeLoop_said (fuel : ℕ) (hfuel : buf.length < fuel) :
    ∃ k ≤ buf.length, (writeLoop p fuel x buf).2.said = x.said ++ buf.take k ∧
      ((writeLoop p fuel x buf).1 = true ↔ k = buf.length) := by
  induction fuel generalizing x buf with
  | zero => omega
  | succ fuel ih =>
    rw [writeLoop]
    by_cases hbuf : 0 < buf.length
    · rw [if_pos hbuf]
      rcases write_cases (p := p) (x := x) hbuf with ⟨hfails, -⟩ | ⟨n, hn, hwrite⟩
      · rw [hfails]
        exact ⟨0, Nat.zero_le _, by simp, by simp; omega⟩
      · have hleft : (buf.drop (n + 1)).length < fuel := by
          rw [List.length_drop]
          omega
        rcases ih (x := x.tell p (buf.take (n + 1))) hleft with ⟨k, hk, hsaid, hall⟩
        rw [List.length_drop] at hk hall
        rw [hwrite]
        refine ⟨n + 1 + k, by omega, ?_, ?_⟩
        · rw [hsaid, tell, List.append_assoc, ← List.take_add]
        · rw [hall]
          omega
    · rw [if_neg hbuf]
      exact ⟨0, Nat.zero_le _, by simp, by simp; omega⟩

variable (p x buf) in
theorem writeAll_said :
    ∃ k ≤ buf.length, (x.writeAll p buf).2.said = x.said ++ buf.take k ∧
      ((x.writeAll p buf).1 = true ↔ k = buf.length) :=
  writeLoop_said _ (Nat.lt_succ_self _)

/-- A steady peer hears everything as if it were said at once. -/
theorem writeLoop_steady (h : p.Steady) (fuel : ℕ) (hfuel : buf.length < fuel) :
    writeLoop p fuel x buf = (true, x.tell p buf) := by
  induction fuel generalizing x buf with
  | zero => omega
  | succ fuel ih =>
    rw [writeLoop]
    by_cases hbuf : 0 < buf.length
    · rw [if_pos hbuf]
      rcases write_cases (p := p) (x := x) hbuf with ⟨-, hzero⟩ | ⟨n, hn, hwrite⟩
      · exact absurd hzero (Nat.ne_of_gt (h.takes _))
      · have hleft : (buf.drop (n + 1)).length < fuel := by
          rw [List.length_drop]
          omega
        have hsplit := List.take_append_drop (n + 1) buf
        rw [hwrite]
        simp only [ih hleft]
        conv_rhs => rw [tell, ← hsplit, h.append]
        simp only [tell, List.append_assoc]
    · have hnil : buf = [] := List.eq_nil_of_length_eq_zero (by omega)
      rw [if_neg hbuf, tell, hnil, h.nil]
      simp

theorem writeAll_steady (h : p.Steady) (x : Exchange α σ) (buf : List α) :
    x.writeAll p buf = (true, x.tell p buf) :=
  writeLoop_steady h _ (Nat.lt_succ_self _)

end Exchange

/-! ## A server -/

section Server

variable {α : Type u} {τ : Type v} (answer : τ → List α → τ × List α)

/-- Answers to one block after the other. -/
def answerAll : τ → List (List α) → τ × List α
  | s, [] => (s, [])
  | s, b :: blocks =>
    let (s', out) := answer s b
    let (s'', more) := answerAll s' blocks
    (s'', out ++ more)

theorem answerAll_append (s : τ) (bs cs : List (List α)) :
    answerAll answer s (bs ++ cs) =
      ((answerAll answer (answerAll answer s bs).1 cs).1,
        (answerAll answer s bs).2 ++ (answerAll answer (answerAll answer s bs).1 cs).2) := by
  induction bs generalizing s with
  | nil => rfl
  | cons b bs ih =>
    rw [List.cons_append, answerAll, answerAll]
    simp only [ih, List.append_assoc]

variable [DecidableEq α] (t : List α) (takes : ℕ → ℕ)

/-- It keeps what is not a whole block yet; how much it takes of a write may depend on how much that
is. -/
def server : Peer α (τ × List α) where
  takes s := max 1 (takes s.2.length)
  hears s xs :=
    let (blocks, buf) := Blocks.receive t s.2 xs
    let (s', out) := answerAll answer s.1 blocks
    ((s', buf), out)

theorem server_steady : (server answer t takes).Steady where
  takes s := Nat.lt_of_lt_of_le Nat.zero_lt_one (Nat.le_max_left _ _)
  nil s := rfl
  append s xs ys := by
    simp only [server, Blocks.receive_append, answerAll_append]

variable {t answer takes}

/-- A block is answered, in whatever pieces it is taken. -/
theorem writeAll_server {b said : List α} {s : τ} {inbox : Source α} (hb : Blocks.IsBlock t b)
    (ht : t ≠ []) :
    Exchange.writeAll (server answer t takes) ⟨(s, []), inbox, said⟩ b =
      (true, ⟨((answer s b).1, []), { inbox with rest := inbox.rest ++ (answer s b).2 },
        said ++ b⟩) := by
  rw [Exchange.writeAll_steady (server_steady answer t takes)]
  simp only [Exchange.tell, server, Blocks.receive_block hb ht, answerAll, List.append_nil]

end Server

end Foundation
end ToonVpu
