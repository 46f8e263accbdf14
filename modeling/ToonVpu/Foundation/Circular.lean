import Mathlib.Data.List.Basic
import Mathlib.Tactic.Common

/-!
# Circular — a store whose cells are addressed modulo its length

A circular store of `N` cells is a function `mem : ℕ → α` of which only the cells below `N` are
used.  A reader sits at cell `rd`; the cells that follow it, in circular order, hold first a
*queue* (written and published, not yet read) and then a *staged* part (written, not yet
published).  This module provides:

* `blit` — the linear copy that a `memcpy` performs, and `store`, the copy cut at the end of the
  store and continued at cell `0`;
* `window` — the cells seen from a position, in circular order;
* `Holds` — the representation invariant, with one rule for each way the store can change:
  reading, staging, publishing, and dropping what is staged.

One cell always stays free, so that a full store and an empty one are told apart by the pointers.
-/

namespace ToonVpu
namespace Foundation
namespace Circular

variable {α : Type*}

/-! ## Copies and windows -/

/-- Copy `xs` to the cells `pos`, `pos + 1`, … of `mem`. -/
def blit (mem : ℕ → α) (pos : ℕ) (xs : List α) : ℕ → α :=
  fun j => if pos ≤ j then xs.getD (j - pos) (mem j) else mem j

/-- Copy `xs` to the cells from `pos` on, continuing at cell `0` after cell `N - 1`. -/
def store (N : ℕ) (mem : ℕ → α) (pos : ℕ) (xs : List α) : ℕ → α :=
  blit (blit mem pos (xs.take (N - pos))) 0 (xs.drop (N - pos))

/-- The `len` cells that follow `pos` in circular order. -/
def window (N : ℕ) (mem : ℕ → α) (pos len : ℕ) : List α :=
  (List.range len).map fun i => mem ((pos + i) % N)

@[simp] theorem window_length (N : ℕ) (mem : ℕ → α) (pos len : ℕ) :
    (window N mem pos len).length = len := by
  simp [window]

@[simp] theorem window_zero (N : ℕ) (mem : ℕ → α) (pos : ℕ) : window N mem pos 0 = [] := rfl

theorem window_add (N : ℕ) (mem : ℕ → α) (pos a b : ℕ) :
    window N mem pos (a + b) = window N mem pos a ++ window N mem (pos + a) b := by
  simp [window, List.range_add, Nat.add_assoc]

theorem window_mod (N : ℕ) (mem : ℕ → α) (pos len : ℕ) :
    window N mem (pos % N) len = window N mem pos len := by
  simp [window]

theorem window_congr {N : ℕ} {mem mem' : ℕ → α} {pos len : ℕ}
    (h : ∀ i < len, mem ((pos + i) % N) = mem' ((pos + i) % N)) :
    window N mem pos len = window N mem' pos len := by
  unfold window
  apply List.map_congr_left
  intro i hi
  exact h i (List.mem_range.1 hi)

theorem getD_take (xs : List α) (m n : ℕ) (d : α) :
    (xs.take m).getD n d = if n < m then xs.getD n d else d := by
  by_cases h : n < m
  · simp [List.getD_eq_getElem?_getD, h]
  · simp [List.getD_eq_getElem?_getD, h, List.getElem?_take]

theorem getD_drop (xs : List α) (m n : ℕ) (d : α) :
    (xs.drop m).getD n d = xs.getD (m + n) d := by
  simp [List.getD_eq_getElem?_getD]

theorem getD_of_length_le {xs : List α} {n : ℕ} {d : α} (h : xs.length ≤ n) :
    xs.getD n d = d := by
  simp [List.getD_eq_getElem?_getD, List.getElem?_eq_none h]

/-- A sum below `2 * N` crosses the end of the store at most once. -/
theorem add_mod_cases {N r k : ℕ} (hr : r < N) (hk : k ≤ N) :
    (r + k < N ∧ (r + k) % N = r + k) ∨ (N ≤ r + k ∧ (r + k) % N = r + k - N) := by
  by_cases h : r + k < N
  · exact .inl ⟨h, Nat.mod_eq_of_lt h⟩
  · refine .inr ⟨by omega, ?_⟩
    rw [Nat.mod_eq_sub_mod (by omega), Nat.mod_eq_of_lt (by omega)]

/-- What `store` does to the cell at circular distance `i` from `r`, when it starts at distance
`k` and does not come back to `r`. -/
theorem store_cell (mem : ℕ → α) {N r k i : ℕ} {xs : List α} (hr : r < N)
    (hk : k + xs.length ≤ N) (hi : i < N) :
    store N mem ((r + k) % N) xs ((r + i) % N) =
      if k ≤ i then xs.getD (i - k) (mem ((r + i) % N)) else mem ((r + i) % N) := by
  have hpos := add_mod_cases (N := N) hr (show k ≤ N by omega)
  have hcell := add_mod_cases (N := N) hr (show i ≤ N by omega)
  generalize (r + k) % N = p at hpos
  generalize (r + i) % N = j at hcell
  simp only [store, blit, Nat.zero_le, if_true, Nat.sub_zero, getD_drop, getD_take]
  -- The cell is before the cut (`p ≤ j`) or after it; the list index is the same either way.
  rcases hpos with ⟨hp, rfl⟩ | ⟨hp, rfl⟩ <;> rcases hcell with ⟨hj, rfl⟩ | ⟨hj, rfl⟩
  · by_cases hki : k ≤ i
    · have hidx : r + i - (r + k) = i - k := by omega
      rw [if_pos (show r + k ≤ r + i by omega), if_pos hki, hidx, if_pos (by omega)]
      exact getD_of_length_le (by omega)
    · rw [if_neg (by omega), if_neg hki]
      exact getD_of_length_le (by omega)
  · have hki : k ≤ i := by omega
    have hidx : N - (r + k) + (r + i - N) = i - k := by omega
    rw [if_neg (by omega), if_pos hki, hidx]
  · have hki : ¬ k ≤ i := by omega
    rw [if_neg hki, getD_of_length_le (by omega)]
    by_cases hle : r + k - N ≤ r + i
    · rw [if_pos hle]
      by_cases hlt : r + i - (r + k - N) < N - (r + k - N)
      · rw [if_pos hlt]
        exact getD_of_length_le (by omega)
      · rw [if_neg hlt]
    · rw [if_neg hle]
  · by_cases hki : k ≤ i
    · have hidx : r + i - N - (r + k - N) = i - k := by omega
      rw [if_pos (show r + k - N ≤ r + i - N by omega), if_pos hki, hidx, if_pos (by omega)]
      exact getD_of_length_le (by omega)
    · rw [if_neg (by omega), if_neg hki]
      exact getD_of_length_le (by omega)

/-- A copy that ends at or before the end of the store is not cut. -/
theorem store_eq_blit {N pos : ℕ} {mem : ℕ → α} {xs : List α} (h : xs.length ≤ N - pos) :
    store N mem pos xs = blit mem pos xs := by
  unfold store
  rw [List.take_of_length_le h, List.drop_of_length_le h]
  funext j
  simp [blit]

/-! ## The representation invariant -/

/-- From `rd` on, the store holds `queue` and then `staged`, and at least one cell is free. -/
structure Holds (N : ℕ) (mem : ℕ → α) (rd : ℕ) (queue staged : List α) : Prop where
  rd_lt : rd < N
  room : queue.length + staged.length < N
  cells : window N mem rd (queue.length + staged.length) = queue ++ staged

namespace Holds

variable {N rd : ℕ} {mem : ℕ → α} {queue staged : List α}

/-- A store without content, whatever its cells are. -/
theorem empty (mem : ℕ → α) (h : rd < N) : Holds N mem rd [] [] :=
  ⟨h, by simp; omega, rfl⟩

theorem front (h : Holds N mem rd queue staged) {k : ℕ} (hk : k ≤ queue.length) :
    window N mem rd k = queue.take k := by
  have hsplit : queue.length + staged.length = k + (queue.length - k + staged.length) := by omega
  have hcells := h.cells
  rw [hsplit, window_add] at hcells
  have htake := congrArg (List.take k) hcells
  simpa [List.take_append_of_le_length hk] using htake

theorem staged_window (h : Holds N mem rd queue staged) :
    window N mem ((rd + queue.length) % N) staged.length = staged := by
  have hcells := h.cells
  rw [window_add, h.front (Nat.le_refl _), List.take_length] at hcells
  rw [window_mod]
  exact List.append_cancel_left hcells

/-- The reader takes the first `k` cells of the queue. -/
theorem read (h : Holds N mem rd queue staged) {k : ℕ} (hk : k ≤ queue.length) :
    Holds N mem ((rd + k) % N) (queue.drop k) staged := by
  have hpos : 0 < N := Nat.lt_of_le_of_lt (Nat.zero_le _) h.rd_lt
  have hroom := h.room
  refine ⟨Nat.mod_lt _ hpos, by simp; omega, ?_⟩
  have hsplit : queue.length + staged.length = k + ((queue.drop k).length + staged.length) := by
    simp; omega
  have hcells := h.cells
  rw [hsplit, window_add, h.front hk] at hcells
  have hqueue : queue ++ staged = queue.take k ++ (queue.drop k ++ staged) := by
    rw [← List.append_assoc, List.take_append_drop]
  rw [hqueue] at hcells
  rw [window_mod]
  exact List.append_cancel_left hcells

/-- The writer puts `xs` behind what is staged, inside the free room. -/
theorem stage (h : Holds N mem rd queue staged) (xs : List α)
    (hroom : queue.length + staged.length + xs.length < N) :
    Holds N (store N mem ((rd + (queue.length + staged.length)) % N) xs) rd queue
      (staged ++ xs) := by
  refine ⟨h.rd_lt, by simp; omega, ?_⟩
  have hlen : queue.length + (staged ++ xs).length =
      queue.length + staged.length + xs.length := by simp; omega
  have hfit : queue.length + staged.length + xs.length ≤ N := by omega
  rw [hlen, window_add, ← List.append_assoc, ← h.cells]
  congr 1
  · apply window_congr
    intro i hi
    rw [store_cell mem h.rd_lt hfit (by omega), if_neg (by omega)]
  · apply List.ext_getElem
    · simp
    · intro i h₁ h₂
      have hi : queue.length + staged.length + i < N := by omega
      have hcell := store_cell mem h.rd_lt hfit hi
      rw [if_pos (by omega)] at hcell
      simp only [window, List.getElem_map, List.getElem_range]
      rw [Nat.add_assoc rd, hcell]
      simp [List.getD_eq_getElem?_getD, h₂]

/-- The writer publishes what is staged. -/
theorem publish (h : Holds N mem rd queue staged) : Holds N mem rd (queue ++ staged) [] :=
  ⟨h.rd_lt, by simpa using h.room, by simpa using h.cells⟩

/-- The writer forgets what is staged. -/
theorem unstage (h : Holds N mem rd queue staged) : Holds N mem rd queue [] := by
  have hroom := h.room
  refine ⟨h.rd_lt, by simp; omega, ?_⟩
  simpa using h.front (Nat.le_refl _)

end Holds

end Circular

/-! ## The queue a circular store implements -/

namespace Fifo

/-- What happens to a queue: data is committed at its end, read at its front, all of it is
discarded, or a commit is refused. -/
inductive Event (α : Type*)
  | commit (xs : List α)
  | read (xs : List α)
  | flush
  | reject (size : ℕ)
  deriving DecidableEq, Repr

variable {α : Type*} [DecidableEq α]

/-- One event on a queue; `none` when a read does not return the front of the queue. -/
def step (queue : List α) : Event α → Option (List α)
  | .commit xs => some (queue ++ xs)
  | .read xs => if queue.take xs.length = xs then some (queue.drop xs.length) else none
  | .flush => some []
  | .reject _ => some queue

/-- The queue after a list of events, from the empty one. -/
def run (events : List (Event α)) : Option (List α) :=
  events.foldlM step []

/-- The data committed by a list of events, one entry for each commit. -/
def commits (events : List (Event α)) : List (List α) :=
  events.filterMap fun
    | .commit xs => some xs
    | _ => none

/-- The data read by a list of events, one entry for each read. -/
def reads (events : List (Event α)) : List (List α) :=
  events.filterMap fun
    | .read xs => some xs
    | _ => none

/-- No commit was refused. -/
def Accepted (events : List (Event α)) : Prop :=
  ∀ size, Event.reject size ∉ events

theorem run_concat {events : List (Event α)} {queue queue' : List α} {e : Event α}
    (h : run events = some queue) (he : step queue e = some queue') :
    run (events ++ [e]) = some queue' := by
  unfold run at h ⊢
  rw [List.foldlM_append, h]
  simpa using he

omit [DecidableEq α] in
@[simp] theorem commits_concat_commit (events : List (Event α)) (xs : List α) :
    commits (events ++ [.commit xs]) = commits events ++ [xs] := by
  simp [commits]

omit [DecidableEq α] in
@[simp] theorem commits_concat_read (events : List (Event α)) (xs : List α) :
    commits (events ++ [.read xs]) = commits events := by
  simp [commits]

omit [DecidableEq α] in
@[simp] theorem commits_concat_flush (events : List (Event α)) :
    commits (events ++ [.flush]) = commits events := by
  simp [commits]

/-- More has happened, and the queue was not flushed. -/
def Grows (events events' : List (Event α)) : Prop :=
  ∃ more, events' = events ++ more ∧ Event.flush ∉ more

namespace Grows

variable {events events' events'' : List (Event α)}

omit [DecidableEq α]

theorem refl (events : List (Event α)) : Grows events events :=
  ⟨[], (List.append_nil events).symm, List.not_mem_nil⟩

theorem trans (h : Grows events events') (h' : Grows events' events'') : Grows events events'' := by
  obtain ⟨more, rfl, hmore⟩ := h
  obtain ⟨more', rfl, hmore'⟩ := h'
  exact ⟨more ++ more', List.append_assoc _ _ _, by simp [hmore, hmore']⟩

theorem concat (events : List (Event α)) {e : Event α} (he : e ≠ .flush) :
    Grows events (events ++ [e]) :=
  ⟨[e], rfl, fun hmem => he (List.mem_singleton.mp hmem).symm⟩

theorem unflushed (h : Grows events events') (hflush : Event.flush ∉ events) :
    Event.flush ∉ events' := by
  obtain ⟨more, rfl, hmore⟩ := h
  simp [hflush, hmore]

end Grows

omit [DecidableEq α] in
theorem Accepted.concat {events : List (Event α)} {e : Event α} (h : Accepted events)
    (he : ∀ size, e ≠ .reject size) : Accepted (events ++ [e]) := by
  intro size hmem
  rcases List.mem_append.1 hmem with hold | hnew
  · exact h size hold
  · exact he size (List.mem_singleton.1 hnew).symm

end Fifo

end Foundation
end ToonVpu
