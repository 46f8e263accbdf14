import Mathlib.Data.Set.Lattice
import Mathlib.Order.CompletePartialOrder
import Mathlib.Order.Disjoint

/-!
# Ownership — regions of a memory that is handed out piece by piece

An allocator keeps a set of used cells, and its clients hold regions.  `Separated` says that the
regions are used and do not overlap.  Handing out unused cells keeps it, and so does taking cells
back as long as they belong to no region that stays.
-/

namespace ToonVpu
namespace Foundation
namespace Ownership

variable {α : Type*}

/-- The regions are part of the used cells and pairwise disjoint. -/
structure Separated (used : Set α) (regions : List (Set α)) : Prop where
  used : ∀ r ∈ regions, r ⊆ used
  disjoint : regions.Pairwise Disjoint

namespace Separated

variable {used cleared r : Set α} {regions regions' : List (Set α)}

theorem nil (used : Set α) : Separated used [] :=
  ⟨fun _ h => absurd h List.not_mem_nil, List.Pairwise.nil⟩

/-- The order of the regions does not matter. -/
theorem perm (h : Separated used regions) (hp : regions.Perm regions') :
    Separated used regions' := by
  refine ⟨?_, ?_⟩
  · intro r hr
    exact h.used r (hp.mem_iff.mpr hr)
  · exact (hp.pairwise_iff fun hd => Disjoint.symm hd).mp h.disjoint

/-- A region of unused cells is handed out. -/
theorem handOut (h : Separated used regions) (hr : Disjoint r used) :
    Separated (used ∪ r) (r :: regions) := by
  refine ⟨?_, List.pairwise_cons.mpr ⟨?_, h.disjoint⟩⟩
  · intro r' hr'
    rcases List.mem_cons.mp hr' with rfl | hr'
    · exact Set.subset_union_right
    · exact (h.used r' hr').trans Set.subset_union_left
  · intro r' hr'
    exact hr.mono_right (h.used r' hr')

/-- Cells that are lost to the clients stay used. -/
theorem leak (h : Separated used regions) (r : Set α) : Separated (used ∪ r) regions :=
  ⟨fun r' hr' => (h.used r' hr').trans Set.subset_union_left, h.disjoint⟩

/-- Cells are taken back, and some regions with them. -/
theorem takeBack (h : Separated used regions) (hsub : regions'.Sublist regions)
    (hstay : ∀ r ∈ regions', Disjoint r cleared) : Separated (used \ cleared) regions' := by
  refine ⟨?_, h.disjoint.sublist hsub⟩
  intro r hr
  exact Set.subset_sdiff.mpr ⟨h.used r (hsub.subset hr), hstay r hr⟩

/-- The cells of a region belong to no other one. -/
theorem apart {pre post : List (Set α)} (h : Separated used (pre ++ r :: post)) :
    ∀ r' ∈ pre ++ post, Disjoint r' r := by
  have hd := h.disjoint
  rw [List.pairwise_append, List.pairwise_cons] at hd
  obtain ⟨-, ⟨hpost, -⟩, hpre⟩ := hd
  intro r' hr'
  rcases List.mem_append.mp hr' with hr' | hr'
  · exact hpre r' hr' r List.mem_cons_self
  · exact (hpost r' hr').symm

/-- Regions that stay used have lost no cell. -/
theorem stays (h : Separated (used \ cleared) regions) : ∀ r ∈ regions, Disjoint r cleared :=
  fun r hr => (Set.subset_sdiff.mp (h.used r hr)).2

end Separated

/-- The regions are all of the used cells, and pairwise disjoint. -/
structure Tiled (used : Set α) (regions : List (Set α)) : Prop where
  covers : ∀ x, x ∈ used ↔ ∃ r ∈ regions, x ∈ r
  disjoint : regions.Pairwise Disjoint

namespace Tiled

variable {used r : Set α} {regions pre post : List (Set α)}

theorem separated (h : Tiled used regions) : Separated used regions :=
  ⟨fun r hr x hx => (h.covers x).mpr ⟨r, hr, hx⟩, h.disjoint⟩

theorem nil : Tiled (∅ : Set α) [] :=
  ⟨fun _ => by simp, List.Pairwise.nil⟩

theorem handOut (h : Tiled used regions) (hr : Disjoint r used) :
    Tiled (used ∪ r) (r :: regions) := by
  refine ⟨fun x => ?_, (h.separated.handOut hr).disjoint⟩
  rw [Set.mem_union, h.covers x, or_comm]
  simp only [List.mem_cons, exists_eq_or_imp]

/-- A region is taken back; no other one has lost a cell. -/
theorem takeBack (h : Tiled used (pre ++ r :: post)) : Tiled (used \ r) (pre ++ post) := by
  have hapart := h.separated.apart
  have hsub : (pre ++ post).Sublist (pre ++ r :: post) :=
    (List.sublist_cons_self r post).append_left pre
  refine ⟨fun x => ?_, h.disjoint.sublist hsub⟩
  rw [Set.mem_sdiff, h.covers x]
  constructor
  · rintro ⟨⟨r', hr', hx⟩, hnot⟩
    rcases List.mem_append.mp hr' with hpre | hpost
    · exact ⟨r', List.mem_append_left _ hpre, hx⟩
    · rcases List.mem_cons.mp hpost with rfl | hpost
      · exact absurd hx hnot
      · exact ⟨r', List.mem_append_right _ hpost, hx⟩
  · rintro ⟨r', hr', hx⟩
    exact ⟨⟨r', hsub.subset hr', hx⟩, Set.disjoint_left.mp (hapart r' hr') hx⟩

end Tiled

end Ownership
end Foundation
end ToonVpu
