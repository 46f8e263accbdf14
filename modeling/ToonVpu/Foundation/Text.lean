import Mathlib.Data.List.Infix
import Mathlib.Tactic.Common

/-!
# Text — searching in C strings

A string is the list of its bytes without the terminator, and a pointer into it is the suffix that it
points to.  The search functions of the C library all look for a suffix with some property, most of
them for the first one.
-/

namespace ToonVpu
namespace Foundation
namespace Text

/-- The bytes of a literal. -/
def ascii (s : String) : List UInt8 := s.toList.map Char.toUInt8

/-! ## Suffixes -/

section Suffixes

variable {α : Type*}

/-- The first suffix with the property `p`. -/
def firstSuffix (p : List α → Bool) : List α → Option (List α)
  | [] => if p [] then some [] else none
  | x :: xs => if p (x :: xs) then some (x :: xs) else firstSuffix p xs

/-- The last suffix with the property `p`. -/
def lastSuffix (p : List α → Bool) : List α → Option (List α)
  | [] => if p [] then some [] else none
  | x :: xs =>
    match lastSuffix p xs with
    | some t => some t
    | none => if p (x :: xs) then some (x :: xs) else none

variable {p : List α → Bool} {s t : List α}

/-- Nothing before the suffix has the property. -/
theorem firstSuffix_eq_some_iff :
    firstSuffix p s = some t ↔
      p t = true ∧ ∃ pre, s = pre ++ t ∧ ∀ a b, pre = a ++ b → b ≠ [] → p (b ++ t) = false := by
  induction s with
  | nil =>
    simp only [firstSuffix]
    constructor
    · intro h
      split at h
      · rename_i hp
        cases h
        refine ⟨hp, [], rfl, fun a b hab hb => ?_⟩
        exact absurd (List.append_eq_nil_iff.mp hab.symm).2 hb
      · cases h
    · rintro ⟨hp, pre, hpre, -⟩
      obtain ⟨-, rfl⟩ := List.append_eq_nil_iff.mp hpre.symm
      rw [if_pos hp]
  | cons x xs ih =>
    simp only [firstSuffix]
    by_cases hx : p (x :: xs) = true
    · rw [if_pos hx]
      constructor
      · intro h
        cases h
        refine ⟨hx, [], rfl, fun a b hab hb => ?_⟩
        exact absurd (List.append_eq_nil_iff.mp hab.symm).2 hb
      · rintro ⟨-, pre, hpre, hfirst⟩
        cases pre with
        | nil => rw [hpre, List.nil_append]
        | cons y pre =>
          have hnot := hfirst [] (y :: pre) rfl (List.cons_ne_nil y pre)
          rw [← hpre, hx] at hnot
          cases hnot
    · rw [if_neg hx, ih]
      refine and_congr_right fun hp => ?_
      constructor
      · rintro ⟨pre, rfl, hfirst⟩
        refine ⟨x :: pre, rfl, fun a b hab hb => ?_⟩
        cases a with
        | nil =>
          rw [List.nil_append] at hab
          rw [← hab]
          exact Bool.eq_false_iff.mpr hx
        | cons y a => exact hfirst a b (List.cons.inj hab).2 hb
      · rintro ⟨pre, hpre, hfirst⟩
        cases pre with
        | nil =>
          rw [List.nil_append] at hpre
          rw [← hpre] at hp
          exact absurd hp hx
        | cons y pre =>
          obtain ⟨rfl, rfl⟩ := List.cons.inj hpre
          exact ⟨pre, rfl, fun a b hab hb => hfirst (x :: a) b (by rw [hab]; rfl) hb⟩

theorem firstSuffix_eq_none_iff :
    firstSuffix p s = none ↔ ∀ pre t, s = pre ++ t → p t = false := by
  induction s with
  | nil =>
    simp only [firstSuffix]
    constructor
    · intro h pre t hpre
      obtain ⟨-, rfl⟩ := List.append_eq_nil_iff.mp hpre.symm
      split at h
      · cases h
      · rename_i hp
        exact Bool.eq_false_iff.mpr hp
    · intro h
      rw [if_neg (Bool.eq_false_iff.mp (h [] [] rfl))]
  | cons x xs ih =>
    simp only [firstSuffix]
    constructor
    · intro h pre t hpre
      split at h
      · cases h
      · rename_i hp
        cases pre with
        | nil =>
          rw [List.nil_append] at hpre
          rw [← hpre]
          exact Bool.eq_false_iff.mpr hp
        | cons y pre => exact ih.mp h pre t (List.cons.inj hpre).2
    · intro h
      rw [if_neg (Bool.eq_false_iff.mp (h [] _ rfl))]
      exact ih.mpr fun pre t hpre => h (x :: pre) t (by rw [hpre]; rfl)

theorem firstSuffix_suffix (h : firstSuffix p s = some t) : t <:+ s := by
  obtain ⟨-, pre, rfl, -⟩ := firstSuffix_eq_some_iff.mp h
  exact List.suffix_append pre t

theorem firstSuffix_sat (h : firstSuffix p s = some t) : p t = true :=
  (firstSuffix_eq_some_iff.mp h).1

theorem lastSuffix_eq_none_iff :
    lastSuffix p s = none ↔ ∀ pre t, s = pre ++ t → p t = false := by
  induction s with
  | nil =>
    simp only [lastSuffix]
    constructor
    · intro h pre t hpre
      obtain ⟨-, rfl⟩ := List.append_eq_nil_iff.mp hpre.symm
      split at h
      · cases h
      · rename_i hp
        exact Bool.eq_false_iff.mpr hp
    · intro h
      rw [if_neg (Bool.eq_false_iff.mp (h [] [] rfl))]
  | cons x xs ih =>
    simp only [lastSuffix]
    constructor
    · intro h pre t hpre
      cases hrest : lastSuffix p xs with
      | some u =>
        rw [hrest] at h
        cases h
      | none =>
        rw [hrest] at h
        cases pre with
        | nil =>
          rw [List.nil_append] at hpre
          subst hpre
          cases hp : p (x :: xs) with
          | false => rfl
          | true =>
            rw [hp] at h
            cases h
        | cons y pre => exact ih.mp hrest pre t (List.cons.inj hpre).2
    · intro h
      have hrest : lastSuffix p xs = none :=
        ih.mpr fun pre t hpre => h (x :: pre) t (by rw [hpre]; rfl)
      rw [hrest]
      exact if_neg (Bool.eq_false_iff.mp (h [] _ rfl))

/-- Behind the suffix nothing has the property. -/
theorem lastSuffix_eq_some_iff :
    lastSuffix p s = some t ↔
      p t = true ∧ t <:+ s ∧ ∀ a b, t = a ++ b → a ≠ [] → p b = false := by
  induction s generalizing t with
  | nil =>
    simp only [lastSuffix]
    constructor
    · intro h
      split at h
      · rename_i hp
        cases h
        refine ⟨hp, List.suffix_rfl, fun a b hab ha => ?_⟩
        exact absurd (List.append_eq_nil_iff.mp hab.symm).1 ha
      · cases h
    · rintro ⟨hp, hsuffix, -⟩
      have hnil := List.suffix_nil.mp hsuffix
      subst hnil
      rw [if_pos hp]
  | cons x xs ih =>
    simp only [lastSuffix]
    cases hrest : lastSuffix p xs with
    | some u =>
      obtain ⟨hu, hsuffix, hlast⟩ := ih.mp hrest
      constructor
      · intro h
        cases h
        exact ⟨hu, hsuffix.trans (List.suffix_cons x xs), hlast⟩
      · rintro ⟨hp, hsuffix', hlast'⟩
        rcases List.suffix_cons_iff.mp hsuffix' with rfl | hbelow
        · obtain ⟨pre, rfl⟩ := hsuffix
          have hnot := hlast' (x :: pre) u rfl (List.cons_ne_nil x pre)
          rw [hu] at hnot
          cases hnot
        · exact hrest.symm.trans (ih.mpr ⟨hp, hbelow, hlast'⟩)
    | none =>
      simp only
      constructor
      · intro h
        split at h
        · rename_i hp
          cases h
          refine ⟨hp, List.suffix_rfl, fun a b hab ha => ?_⟩
          cases a with
          | nil => exact absurd rfl ha
          | cons y a => exact lastSuffix_eq_none_iff.mp hrest a b (List.cons.inj hab).2
        · cases h
      · rintro ⟨hp, hsuffix, -⟩
        rcases List.suffix_cons_iff.mp hsuffix with rfl | ⟨pre, hpre⟩
        · rw [if_pos hp]
        · have hnot := lastSuffix_eq_none_iff.mp hrest pre t hpre.symm
          rw [hp] at hnot
          cases hnot

/-- The first suffix with the property is the longest one. -/
theorem firstSuffix_longest :
    firstSuffix p s = some t ↔
      p t = true ∧ t <:+ s ∧ ∀ u, u <:+ s → p u = true → u.length ≤ t.length := by
  rw [firstSuffix_eq_some_iff]
  refine and_congr_right fun _ => ?_
  constructor
  · rintro ⟨pre, rfl, hfirst⟩
    refine ⟨List.suffix_append pre t, fun u hu hp => ?_⟩
    by_contra hlong
    -- A longer suffix would end a part of what stands before.
    obtain ⟨b, rfl⟩ : t <:+ u :=
      List.suffix_of_suffix_length_le (List.suffix_append pre t) hu (by omega)
    obtain ⟨a, ha⟩ := hu
    rw [← List.append_assoc, List.append_cancel_right_eq] at ha
    have hnot := hfirst a b ha.symm (by rintro rfl; simp at hlong)
    rw [hp] at hnot
    cases hnot
  · rintro ⟨⟨pre, rfl⟩, hlongest⟩
    refine ⟨pre, rfl, fun a b hab hb => ?_⟩
    apply Bool.eq_false_iff.mpr
    intro hp
    have hle := hlongest (b ++ t) ⟨a, by rw [hab, List.append_assoc]⟩ hp
    rw [List.length_append] at hle
    have hpos := List.length_pos_of_ne_nil hb
    omega

/-- The last suffix with the property is the shortest one. -/
theorem lastSuffix_shortest :
    lastSuffix p s = some t ↔
      p t = true ∧ t <:+ s ∧ ∀ u, u <:+ s → p u = true → t.length ≤ u.length := by
  rw [lastSuffix_eq_some_iff]
  refine and_congr_right fun _ => and_congr_right fun hsuffix => ?_
  constructor
  · intro hlast u hu hp
    by_contra hshort
    obtain ⟨a, rfl⟩ : u <:+ t := List.suffix_of_suffix_length_le hu hsuffix (by omega)
    have hnot := hlast a u rfl (by rintro rfl; simp at hshort)
    rw [hp] at hnot
    cases hnot
  · intro hshortest a b hab ha
    apply Bool.eq_false_iff.mpr
    intro hp
    have hle := hshortest b ((List.suffix_append a b).trans (hab ▸ hsuffix)) hp
    rw [hab, List.length_append] at hle
    have hpos := List.length_pos_of_ne_nil ha
    omega

theorem firstSuffix_none : firstSuffix p s = none ↔ ∀ t, t <:+ s → p t = false := by
  rw [firstSuffix_eq_none_iff]
  exact ⟨fun h t ⟨pre, hpre⟩ => h pre t hpre.symm, fun h pre t hpre => h t ⟨pre, hpre.symm⟩⟩

theorem lastSuffix_none : lastSuffix p s = none ↔ ∀ t, t <:+ s → p t = false := by
  rw [lastSuffix_eq_none_iff]
  exact ⟨fun h t ⟨pre, hpre⟩ => h pre t hpre.symm, fun h pre t hpre => h t ⟨pre, hpre.symm⟩⟩

/-- What holds of no suffix that begins in the first part is looked for in the second. -/
theorem firstSuffix_append_of_false {a : List α}
    (h : ∀ b c, a = b ++ c → c ≠ [] → p (c ++ s) = false) :
    firstSuffix p (a ++ s) = firstSuffix p s := by
  induction a with
  | nil => rfl
  | cons x a ih =>
    have hx : p (x :: a ++ s) = false := h [] (x :: a) rfl (List.cons_ne_nil x a)
    calc firstSuffix p (x :: a ++ s) = firstSuffix p (a ++ s) := if_neg (Bool.eq_false_iff.mp hx)
      _ = firstSuffix p s := ih fun b c hbc hc => h (x :: b) c (by rw [hbc]; rfl) hc

theorem firstSuffix_self (h : p s = true) : firstSuffix p s = some s := by
  cases s with
  | nil => exact if_pos h
  | cons x xs => exact if_pos h

/-- A narrower property is first looked for where the wider one holds first. -/
theorem firstSuffix_of_wider {q : List α → Bool} (hpq : ∀ u, p u = true → q u = true)
    (h : firstSuffix q s = some t) : firstSuffix p s = firstSuffix p t := by
  obtain ⟨-, pre, rfl, hfirst⟩ := firstSuffix_eq_some_iff.mp h
  apply firstSuffix_append_of_false
  intro b c hbc hc
  apply Bool.eq_false_iff.mpr
  intro hp
  have hnot := hfirst b c hbc hc
  rw [hpq _ hp] at hnot
  cases hnot

end Suffixes

/-! ## The C library -/

/-- `strchr` for a character that is not the terminator. -/
def strchr (s : List UInt8) (c : UInt8) : Option (List UInt8) :=
  firstSuffix (fun t => t.head? == some c) s

/-- `strrchr` for a character that is not the terminator. -/
def strrchr (s : List UInt8) (c : UInt8) : Option (List UInt8) :=
  lastSuffix (fun t => t.head? == some c) s

/-- `strstr` for a needle that is not empty. -/
def strstr (s needle : List UInt8) : Option (List UInt8) :=
  firstSuffix (fun t => needle.isPrefixOf t) s

/-- A letter without its case. -/
def lower (c : UInt8) : UInt8 := if 65 ≤ c ∧ c ≤ 90 then c + 32 else c

/-- Whether the needle is at the front, in whatever case. -/
def beginsWith (needle t : List UInt8) : Bool := (needle.map lower).isPrefixOf (t.map lower)

/-- `strcasestr` for a needle that is not empty. -/
def strcasestr (s needle : List UInt8) : Option (List UInt8) := firstSuffix (beginsWith needle) s

section Search

variable {s t needle : List UInt8} {c : UInt8}

theorem head_cons (c : UInt8) (rest : List UInt8) : ((c :: rest).head? == some c) = true := by
  simp

theorem head_eq_iff : ((t.head? == some c) = true) ↔ ∃ rest, t = c :: rest := by
  cases t with
  | nil => simp
  | cons x xs =>
    constructor
    · intro h
      have hx : x = c := by simpa using h
      exact ⟨xs, by rw [hx]⟩
    · rintro ⟨rest, hrest⟩
      rw [hrest]
      exact head_cons c rest

theorem strchr_eq_some_iff :
    strchr s c = some t ↔ ∃ pre rest, t = c :: rest ∧ s = pre ++ t ∧ c ∉ pre := by
  unfold strchr
  rw [firstSuffix_eq_some_iff, head_eq_iff]
  constructor
  · rintro ⟨⟨rest, rfl⟩, pre, rfl, hfirst⟩
    refine ⟨pre, rest, rfl, rfl, fun hmem => ?_⟩
    obtain ⟨a, b, rfl⟩ := List.append_of_mem hmem
    have hnot := hfirst a (c :: b) rfl (List.cons_ne_nil c b)
    rw [List.cons_append, head_cons] at hnot
    cases hnot
  · rintro ⟨pre, rest, rfl, rfl, hmem⟩
    refine ⟨⟨rest, rfl⟩, pre, rfl, fun a b hab hb => ?_⟩
    cases b with
    | nil => exact absurd rfl hb
    | cons x b =>
      have hx : c ≠ x := by
        rintro rfl
        exact hmem (by rw [hab]; simp)
      simp [hx.symm]

theorem strchr_eq_none_iff : strchr s c = none ↔ c ∉ s := by
  unfold strchr
  rw [firstSuffix_eq_none_iff]
  constructor
  · intro h hmem
    obtain ⟨a, b, rfl⟩ := List.append_of_mem hmem
    have hnot := h a (c :: b) rfl
    rw [head_cons] at hnot
    cases hnot
  · rintro hmem pre t rfl
    apply Bool.eq_false_iff.mpr
    intro hhead
    obtain ⟨rest, rfl⟩ := head_eq_iff.mp hhead
    exact hmem (by simp)

/-- The character is looked for in the second part when it is not in the first. -/
theorem strchr_append_of_not_mem {a : List UInt8} (h : c ∉ a) : strchr (a ++ s) c = strchr s c := by
  induction a with
  | nil => rfl
  | cons x a ih =>
    rw [List.mem_cons, not_or] at h
    have hx : ((x :: (a ++ s)).head? == some c) = false := by simpa using fun hxc => h.1 hxc.symm
    calc strchr (x :: a ++ s) c = strchr (a ++ s) c := if_neg (Bool.eq_false_iff.mp hx)
      _ = strchr s c := ih h.2

theorem strchr_append_of_some {a : List UInt8} (h : strchr a c = some t) :
    strchr (a ++ s) c = some (t ++ s) := by
  obtain ⟨pre, rest, rfl, rfl, hpre⟩ := strchr_eq_some_iff.mp h
  exact strchr_eq_some_iff.mpr ⟨pre, rest ++ s, rfl, List.append_assoc .., hpre⟩

theorem strrchr_eq_some_iff :
    strrchr s c = some t ↔ ∃ pre rest, t = c :: rest ∧ s = pre ++ t ∧ c ∉ rest := by
  unfold strrchr
  rw [lastSuffix_eq_some_iff, head_eq_iff]
  constructor
  · rintro ⟨⟨rest, rfl⟩, ⟨pre, rfl⟩, hlast⟩
    refine ⟨pre, rest, rfl, rfl, fun hmem => ?_⟩
    obtain ⟨a, b, rfl⟩ := List.append_of_mem hmem
    have hnot := hlast (c :: a) (c :: b) rfl (List.cons_ne_nil c a)
    rw [head_cons] at hnot
    cases hnot
  · rintro ⟨pre, rest, rfl, rfl, hmem⟩
    refine ⟨⟨rest, rfl⟩, List.suffix_append pre _, fun a b hab ha => ?_⟩
    apply Bool.eq_false_iff.mpr
    intro hhead
    obtain ⟨rest', rfl⟩ := head_eq_iff.mp hhead
    cases a with
    | nil => exact absurd rfl ha
    | cons y a => exact hmem (by rw [(List.cons.inj hab).2]; simp)

theorem strrchr_eq_none_iff : strrchr s c = none ↔ c ∉ s := by
  unfold strrchr
  rw [lastSuffix_eq_none_iff]
  constructor
  · intro h hmem
    obtain ⟨a, b, rfl⟩ := List.append_of_mem hmem
    have hnot := h a (c :: b) rfl
    rw [head_cons] at hnot
    cases hnot
  · rintro hmem pre t rfl
    apply Bool.eq_false_iff.mpr
    intro hhead
    obtain ⟨rest, rfl⟩ := head_eq_iff.mp hhead
    exact hmem (by simp)

theorem takeWhile_before {a : List UInt8} (h : c ∉ a) (t : List UInt8) :
    (a ++ c :: t).takeWhile (· ≠ c) = a := by
  rw [List.takeWhile_append_of_pos, List.takeWhile_cons_of_neg, List.append_nil]
  · simp
  · intro x hx
    have hne : x ≠ c := fun heq => h (heq ▸ hx)
    simpa using hne

theorem dropWhile_before {a : List UInt8} (h : c ∉ a) (t : List UInt8) :
    (a ++ c :: t).dropWhile (· ≠ c) = c :: t := by
  rw [List.dropWhile_append_of_pos, List.dropWhile_cons_of_neg]
  · simp
  · intro x hx
    have hne : x ≠ c := fun heq => h (heq ▸ hx)
    simpa using hne

theorem strstr_isSome_iff : (strstr s needle).isSome = true ↔ needle <:+: s := by
  cases h : strstr s needle with
  | none =>
    refine iff_of_false (by simp) ?_
    rintro ⟨pre, post, rfl⟩
    have hnot := firstSuffix_none.mp h (needle ++ post) ⟨pre, by rw [List.append_assoc]⟩
    rw [List.isPrefixOf_iff_prefix.mpr (List.prefix_append needle post)] at hnot
    cases hnot
  | some t =>
    refine iff_of_true rfl ?_
    obtain ⟨hsat, hsuffix, -⟩ := firstSuffix_longest.mp h
    exact (List.isPrefixOf_iff_prefix.mp hsat).isInfix.trans hsuffix.isInfix

/-- A string that the needle begins is found at once. -/
theorem strstr_self_iff : strstr s needle = some s ↔ needle <+: s := by
  constructor
  · intro h
    exact List.isPrefixOf_iff_prefix.mp (firstSuffix_sat h)
  · intro h
    have hp : needle.isPrefixOf s = true := List.isPrefixOf_iff_prefix.mpr h
    unfold strstr
    cases s with
    | nil => exact if_pos hp
    | cons x xs => exact if_pos hp

/-- No proper end of the needle is also its beginning, so its occurrences do not overlap. -/
def Unbordered (needle : List UInt8) : Prop :=
  ∀ k < needle.length, 0 < k → ¬ needle.drop k <+: needle

instance (needle : List UInt8) : Decidable (Unbordered needle) :=
  inferInstanceAs (Decidable (∀ k < needle.length, 0 < k → ¬ needle.drop k <+: needle))

theorem beginsWith_drop_of_unbordered (h : Unbordered (needle.map lower))
    (ht : beginsWith needle t = true) {k : ℕ} (hk : 0 < k) (hk' : k < needle.length) :
    beginsWith needle (t.drop k) = false := by
  apply Bool.eq_false_iff.mpr
  intro hagain
  have hfirst : (needle.map lower).drop k <+: (t.map lower).drop k :=
    (List.isPrefixOf_iff_prefix.mp ht).drop k
  have hsecond : needle.map lower <+: (t.map lower).drop k := by
    rw [← List.map_drop]
    exact List.isPrefixOf_iff_prefix.mp hagain
  refine h k (by rwa [List.length_map]) hk (List.prefix_of_prefix_length_le hfirst hsecond ?_)
  rw [List.length_drop]
  omega

theorem beginsWith_append {a : List UInt8} (h : beginsWith needle a = true) (s : List UInt8) :
    beginsWith needle (a ++ s) = true := by
  apply List.isPrefixOf_iff_prefix.mpr
  rw [List.map_append]
  exact (List.isPrefixOf_iff_prefix.mp h).trans (List.prefix_append _ _)

/-- A text that is the needle but for its case begins with it. -/
theorem beginsWith_of_lower {a : List UInt8} (h : a.map lower = needle.map lower) :
    beginsWith needle a = true := by
  apply List.isPrefixOf_iff_prefix.mpr
  rw [h]

end Search

end Text
end Foundation
end ToonVpu
