import ToonVpu.Foundation.Text

/-!
# Sdp — the control attribute of the video section (`sdp_parse_h264` of `apps/vpu_stream.c`)

`sdp_parse_h264` searches the text of a session description for `m=video`, for the next line that
begins with `m=`, and for `a=control:` in between.  When there is none in between it uses the next
one behind.

Strings are searched for at any place of a line; the attributes of a description are lines.
-/

namespace ToonVpu
namespace Stream

open Foundation
open Foundation.Text

/-! ## The search -/

/-- `a=control:`. -/
def controlKey : List UInt8 := ascii "a=control:"

/-- Where a section begins that starts with `p`: the next line that begins with `m=` ends it. -/
def sectionEnd (p : List UInt8) : List UInt8 := (strstr (p.drop 1) (ascii "\nm=")).getD []

/-- The loop to the last `a=control:` before `stop`. -/
def controlLoop (stop : List UInt8) : ℕ → List UInt8 → List UInt8
  | 0, p => p
  | fuel + 1, p =>
    match strstr (p.drop 1) controlKey with
    | none => p
    | some next => if stop.length < next.length then controlLoop stop fuel next else p

/-- Where the control string is taken from. -/
def sdpControlAt (sdp : List UInt8) : Option (List UInt8) :=
  let (start, stop) :=
    match strstr sdp (ascii "m=video") with
    | none => (sdp, [])
    | some p => (p, sectionEnd p)
  match strstr start controlKey with
  | none => none
  | some p => if stop.length < p.length then some (controlLoop stop p.length p) else some p

/-- The value of an attribute: what follows its name up to the end of the line. -/
def controlValue (p : List UInt8) : List UInt8 :=
  (p.drop 10).takeWhile fun c => c ≠ 13 ∧ c ≠ 10

/-- `control` after `sdp_parse_h264`, an array of `controlLen` bytes. -/
def sdpControl (sdp : List UInt8) (controlLen : ℕ) : List UInt8 :=
  match sdpControlAt sdp with
  | none => []
  | some p => (controlValue p).take (controlLen - 1)

/-! ## The attribute -/

/-- The first line that begins with `key`. -/
def lineAt (key s : List UInt8) : Option (List UInt8) :=
  if key.isPrefixOf s then some s else (strstr s (10 :: key)).map (·.drop 1)

/-- The last line with a control attribute in the section that begins with `video`. -/
def controlLine (video : List UInt8) : Option (List UInt8) :=
  (lastSuffix (fun t => (10 :: controlKey).isPrefixOf t && (sectionEnd video).length < t.length)
    video).map (·.drop 1)

/-- The last control attribute of the video section. -/
def videoControlAt (sdp : List UInt8) : Option (List UInt8) :=
  (lineAt (ascii "m=video") sdp).bind controlLine

/-- The control string is the value of the attribute, and is taken from there; without an attribute
it is empty. -/
structure ControlFaithful (sdp : List UInt8) (controlLen : ℕ) : Prop where
  place : sdpControlAt sdp = videoControlAt sdp
  value : sdpControl sdp controlLen = ((videoControlAt sdp).map controlValue).getD []

/-! ## Where the code finds it -/

/-- An `a=control:` before `stop`. -/
def inSection (stop t : List UInt8) : Bool :=
  controlKey.isPrefixOf t && decide (stop.length < t.length)

/-- The last `a=control:` of the section that begins with `start`. -/
def lastControl (start : List UInt8) : Option (List UInt8) :=
  lastSuffix (inSection (sectionEnd start)) start

section Search

variable {sdp start stop p t u v w : List UInt8}

theorem inSection_iff :
    inSection stop t = true ↔ controlKey.isPrefixOf t = true ∧ stop.length < t.length := by
  simp [inSection]

/-- The loop stops at the last attribute before `stop`. -/
theorem controlLoop_last (fuel : ℕ) (hp : inSection stop p = true) (hfuel : p.length ≤ fuel) :
    lastSuffix (inSection stop) p = some (controlLoop stop fuel p) := by
  induction fuel generalizing p with
  | zero =>
    have hlt := (inSection_iff.mp hp).2
    omega
  | succ fuel ih =>
    have hpos : 0 < p.length := by
      have hlt := (inSection_iff.mp hp).2
      omega
    -- A suffix of `p` is `p` itself or begins behind its first character.
    have hsplit : ∀ t, t <:+ p → t = p ∨ t <:+ p.drop 1 := by
      intro t ht
      cases p with
      | nil => exact absurd hpos (by simp)
      | cons x xs => exact List.suffix_cons_iff.mp ht
    cases hnext : strstr (p.drop 1) controlKey with
    | none =>
      have hloop : controlLoop stop (fuel + 1) p = p := by rw [controlLoop, hnext]
      rw [hloop, lastSuffix_shortest]
      refine ⟨hp, List.suffix_rfl, fun t ht hkey => ?_⟩
      rcases hsplit t ht with rfl | hbehind
      · exact le_rfl
      · have hnot := firstSuffix_none.mp hnext t hbehind
        rw [(inSection_iff.mp hkey).1] at hnot
        cases hnot
    | some next =>
      obtain ⟨hkey, hsuffix, hlongest⟩ := firstSuffix_longest.mp hnext
      by_cases hin : stop.length < next.length
      · have hloop : controlLoop stop (fuel + 1) p = controlLoop stop fuel next := by
          rw [controlLoop, hnext]
          exact if_pos hin
        have hle : next.length ≤ fuel := by
          have := hsuffix.length_le
          rw [List.length_drop] at this
          omega
        have hlast := ih (inSection_iff.mpr ⟨hkey, hin⟩) hle
        obtain ⟨hsat, hbelow, hshortest⟩ := lastSuffix_shortest.mp hlast
        rw [hloop, lastSuffix_shortest]
        refine ⟨hsat, hbelow.trans (hsuffix.trans (List.drop_suffix 1 p)), fun t ht htp => ?_⟩
        rcases hsplit t ht with rfl | hbehind
        · exact (hbelow.trans (hsuffix.trans (List.drop_suffix 1 _))).length_le
        · have hshort := hlongest t hbehind (inSection_iff.mp htp).1
          exact hshortest t (List.suffix_of_suffix_length_le hbehind hsuffix hshort) htp
      · have hloop : controlLoop stop (fuel + 1) p = p := by
          rw [controlLoop, hnext]
          exact if_neg hin
        rw [hloop, lastSuffix_shortest]
        refine ⟨hp, List.suffix_rfl, fun t ht htp => ?_⟩
        rcases hsplit t ht with rfl | hbehind
        · exact le_rfl
        · obtain ⟨htkey, hlt⟩ := inSection_iff.mp htp
          have hle := hlongest t hbehind htkey
          omega

/-- The last attribute of the section, or else the next one behind. -/
theorem sdpControlAt_of_video (h : strstr sdp (ascii "m=video") = some start) :
    sdpControlAt sdp = (lastControl start).or (strstr start controlKey) := by
  unfold sdpControlAt
  simp only [h]
  cases hfirst : strstr start controlKey with
  | none =>
    have hnone : lastControl start = none := by
      rw [lastControl, lastSuffix_none]
      intro t ht
      rw [inSection, firstSuffix_none.mp hfirst t ht, Bool.false_and]
    rw [hnone]
    rfl
  | some p =>
    obtain ⟨hkey, hsuffix, hlongest⟩ := firstSuffix_longest.mp hfirst
    simp only
    by_cases hin : (sectionEnd start).length < p.length
    · have hlast := controlLoop_last p.length (inSection_iff.mpr ⟨hkey, hin⟩) le_rfl
      obtain ⟨hsat, hbelow, hshortest⟩ := lastSuffix_shortest.mp hlast
      have hcontrol : lastControl start = some (controlLoop (sectionEnd start) p.length p) := by
        rw [lastControl, lastSuffix_shortest]
        refine ⟨hsat, hbelow.trans hsuffix, fun t ht htp => hshortest t ?_ htp⟩
        exact List.suffix_of_suffix_length_le ht hsuffix
          (hlongest t ht (inSection_iff.mp htp).1)
      rw [if_pos hin, hcontrol, Option.some_or]
    · have hnone : lastControl start = none := by
        rw [lastControl, lastSuffix_none]
        intro t ht
        apply Bool.eq_false_iff.mpr
        intro htp
        obtain ⟨htkey, hlt⟩ := inSection_iff.mp htp
        have hle := hlongest t ht htkey
        omega
      rw [if_neg hin, hnone, Option.none_or]

/-! ## Where the attribute is -/

theorem lineAt_some {key s : List UInt8} (h : lineAt key s = some v) :
    key.isPrefixOf v = true ∧ (v = s ∨ 10 :: v <:+ s) := by
  unfold lineAt at h
  by_cases hkey : key.isPrefixOf s = true
  · rw [if_pos hkey] at h
    cases h
    exact ⟨hkey, .inl rfl⟩
  · rw [if_neg hkey] at h
    obtain ⟨t, ht, rfl⟩ := Option.map_eq_some_iff.mp h
    obtain ⟨hsat, hsuffix, -⟩ := firstSuffix_longest.mp ht
    obtain ⟨rest, rfl⟩ := List.isPrefixOf_iff_prefix.mp hsat
    refine ⟨List.isPrefixOf_iff_prefix.mpr ⟨rest, rfl⟩, .inr hsuffix⟩

/-- A control line is an attribute of the section that stands behind a line feed. -/
theorem controlLine_some_iff :
    controlLine v = some u ↔
      lastSuffix (fun t => (10 :: controlKey).isPrefixOf t &&
        decide ((sectionEnd v).length < t.length)) v = some (10 :: u) := by
  unfold controlLine
  rw [Option.map_eq_some_iff]
  constructor
  · rintro ⟨t, ht, rfl⟩
    obtain ⟨hsat, -, -⟩ := lastSuffix_shortest.mp ht
    obtain ⟨rest, rfl⟩ := List.isPrefixOf_iff_prefix.mp (Bool.and_eq_true_iff.mp hsat).1
    exact ht
  · intro h
    exact ⟨10 :: u, h, rfl⟩

theorem sectionEnd_cases (v : List UInt8) :
    sectionEnd v = [] ∨ sectionEnd v <:+ v.drop 1 ∧ ∃ r, sectionEnd v = 10 :: r := by
  unfold sectionEnd
  cases hend : strstr (v.drop 1) (ascii "\nm=") with
  | none => exact .inl rfl
  | some e =>
    obtain ⟨hsat, hsuffix, -⟩ := firstSuffix_longest.mp hend
    obtain ⟨rest, rfl⟩ := List.isPrefixOf_iff_prefix.mp hsat
    exact .inr ⟨hsuffix, _, rfl⟩

/-- A line of the section is an attribute of the section. -/
theorem inSection_of_line (hu : u <:+ v) (hkey : (10 :: controlKey).isPrefixOf u = true)
    (hlt : (sectionEnd v).length < u.length) :
    ∃ r, u = 10 :: r ∧ inSection (sectionEnd v) r = true := by
  obtain ⟨rest, rfl⟩ := List.isPrefixOf_iff_prefix.mp hkey
  refine ⟨controlKey ++ rest, rfl, inSection_iff.mpr ⟨?_, ?_⟩⟩
  · exact List.isPrefixOf_iff_prefix.mpr (List.prefix_append controlKey rest)
  · have hr : controlKey ++ rest <:+ v := (List.suffix_cons 10 _).trans hu
    rw [List.cons_append, List.length_cons] at hlt
    rcases sectionEnd_cases v with hnil | ⟨hend, r, hr10⟩
    · rw [hnil]
      simp [controlKey, ascii]
    · -- The end begins with a line feed, so it is not at the attribute itself.
      rcases Nat.lt_succ_iff_lt_or_eq.mp hlt with h | h
      · exact h
      · have heq := List.IsSuffix.eq_of_length
          (List.suffix_of_suffix_length_le (hend.trans (List.drop_suffix 1 v)) hr h.le) h
        rw [hr10] at heq
        exact absurd (List.cons.inj heq).1 (by decide)

/-- The control line is the attribute that the search ends at, when that one is a line. -/
theorem controlLine_of_lastControl (h : lastControl v = some w) :
    controlLine v = some w ↔ 10 :: w <:+ v := by
  rw [controlLine_some_iff, lastSuffix_shortest]
  obtain ⟨hsat, -, hshortest⟩ := lastSuffix_shortest.mp h
  obtain ⟨hkey, hlt⟩ := inSection_iff.mp hsat
  constructor
  · exact fun hline => hline.2.1
  · intro hsuffix
    refine ⟨?_, hsuffix, fun t ht htp => ?_⟩
    · refine Bool.and_eq_true_iff.mpr ⟨?_, decide_eq_true ?_⟩
      · obtain ⟨rest, rfl⟩ := List.isPrefixOf_iff_prefix.mp hkey
        exact List.isPrefixOf_iff_prefix.mpr ⟨rest, rfl⟩
      · rw [List.length_cons]
        omega
    · obtain ⟨htkey, htlt⟩ := Bool.and_eq_true_iff.mp htp
      obtain ⟨r, rfl, hr⟩ := inSection_of_line ht htkey (of_decide_eq_true htlt)
      have hle := hshortest r ((List.suffix_cons 10 r).trans ht) hr
      simpa using hle

theorem controlLine_none (h : lastControl v = none) : controlLine v = none := by
  unfold controlLine
  rw [Option.map_eq_none_iff, lastSuffix_none]
  intro t ht
  apply Bool.eq_false_iff.mpr
  intro htp
  obtain ⟨htkey, htlt⟩ := Bool.and_eq_true_iff.mp htp
  obtain ⟨r, rfl, hr⟩ := inSection_of_line ht htkey (of_decide_eq_true htlt)
  rw [lastSuffix_none.mp h r ((List.suffix_cons 10 r).trans ht)] at hr
  cases hr

/-- When the first `m=video` is not the line, the line is behind the section that the search takes
for it. -/
theorem line_behind (hstart : strstr sdp (ascii "m=video") = some start)
    (hline : lineAt (ascii "m=video") sdp = some v) (hne : start ≠ v) :
    v.length < (sectionEnd start).length ∧ v <:+ start := by
  obtain ⟨hkey, hsuffix, hlongest⟩ := firstSuffix_longest.mp hstart
  obtain ⟨hvkey, hv⟩ := lineAt_some hline
  have hvs : v <:+ sdp := by
    rcases hv with rfl | hv
    · exact List.suffix_rfl
    · exact (List.suffix_cons 10 v).trans hv
  have hbelow : v <:+ start :=
    List.suffix_of_suffix_length_le hvs hsuffix (hlongest v hvs hvkey)
  have hlt : v.length < start.length :=
    lt_of_le_of_ne hbelow.length_le fun h => hne (hbelow.eq_of_length h).symm
  refine ⟨?_, hbelow⟩
  have hv10 : 10 :: v <:+ sdp := by
    rcases hv with rfl | hv
    · exact absurd hsuffix.length_le (by omega)
    · exact hv
  -- The line feed before the line is behind the first character of `start`, which is no line feed.
  have hbehind : 10 :: v <:+ start.drop 1 := by
    have hstart10 : 10 :: v <:+ start := List.suffix_of_suffix_length_le hv10 hsuffix hlt
    obtain ⟨rest, rfl⟩ := List.isPrefixOf_iff_prefix.mp hkey
    rcases List.suffix_cons_iff.mp hstart10 with heq | hdrop
    · exact absurd (List.cons.inj heq).1 (by decide)
    · exact hdrop
  obtain ⟨rest, hrest⟩ := List.isPrefixOf_iff_prefix.mp hvkey
  have hmedia : (ascii "\nm=").isPrefixOf (10 :: v) = true :=
    List.isPrefixOf_iff_prefix.mpr ⟨ascii "video" ++ rest, by rw [← hrest]; rfl⟩
  unfold sectionEnd
  cases hend : strstr (start.drop 1) (ascii "\nm=") with
  | none =>
    rw [firstSuffix_none.mp hend _ hbehind] at hmedia
    cases hmedia
  | some e =>
    have hle := (firstSuffix_longest.mp hend).2.2 _ hbehind hmedia
    rw [List.length_cons] at hle
    exact hle

/-- The video control is in the section of its line. -/
theorem videoControlAt_length (hline : lineAt (ascii "m=video") sdp = some v)
    (hu : videoControlAt sdp = some u) : u.length < v.length := by
  have hcontrol : controlLine v = some u := by
    rw [videoControlAt, hline] at hu
    exact hu
  have hle := (lastSuffix_shortest.mp (controlLine_some_iff.mp hcontrol)).2.1.length_le
  rw [List.length_cons] at hle
  exact hle

/-! ## When the control string is the attribute's -/

/-- From the first `m=video` on there is no `a=control:`; or that `m=video` is the line and the last
`a=control:` of its section is a line; or it is no line, there is none up to the next line with
`m=`, and the next one behind is the attribute. -/
def ControlPlain (sdp start : List UInt8) : Prop :=
  strstr start controlKey = none ∨
    (lineAt (ascii "m=video") sdp = some start ∧
      ∃ w, lastControl start = some w ∧ 10 :: w <:+ sdp) ∨
    (lineAt (ascii "m=video") sdp ≠ some start ∧ lastControl start = none ∧
      strstr start controlKey = videoControlAt sdp)

theorem controlKey_of_last (h : lastControl v = some w) :
    controlKey.isPrefixOf w = true ∧ w <:+ v ∧ (sectionEnd v).length < w.length := by
  obtain ⟨hsat, hsuffix, -⟩ := lastSuffix_shortest.mp h
  obtain ⟨hkey, hlt⟩ := inSection_iff.mp hsat
  exact ⟨hkey, hsuffix, hlt⟩

theorem strstr_of_last (h : lastControl v = some w) : strstr v controlKey ≠ none := by
  obtain ⟨hkey, hsuffix, -⟩ := controlKey_of_last h
  intro hnone
  rw [firstSuffix_none.mp hnone w hsuffix] at hkey
  cases hkey

theorem videoControlAt_suffix (hline : lineAt (ascii "m=video") sdp = some v)
    (hu : videoControlAt sdp = some u) : controlKey.isPrefixOf u = true ∧ u <:+ v := by
  have hcontrol : controlLine v = some u := by
    rw [videoControlAt, hline] at hu
    exact hu
  obtain ⟨hsat, hsuffix, -⟩ := lastSuffix_shortest.mp (controlLine_some_iff.mp hcontrol)
  obtain ⟨rest, hrest⟩ := List.isPrefixOf_iff_prefix.mp (Bool.and_eq_true_iff.mp hsat).1
  obtain ⟨-, rfl⟩ := List.cons.inj hrest
  exact ⟨List.isPrefixOf_iff_prefix.mpr (List.prefix_append _ _),
    (List.suffix_cons 10 _).trans hsuffix⟩

/-- In the section of the line. -/
theorem place_iff_of_line (hstart : strstr sdp (ascii "m=video") = some v)
    (hline : lineAt (ascii "m=video") sdp = some v) :
    sdpControlAt sdp = videoControlAt sdp ↔
      strstr v controlKey = none ∨ ∃ w, lastControl v = some w ∧ 10 :: w <:+ sdp := by
  have hspec : videoControlAt sdp = controlLine v := by rw [videoControlAt, hline]; rfl
  rw [sdpControlAt_of_video hstart, hspec]
  obtain ⟨hvkey, hvsuffix, -⟩ := firstSuffix_longest.mp hstart
  cases hlast : lastControl v with
  | none =>
    rw [Option.none_or, controlLine_none hlast]
    simp
  | some w =>
    have hfound := strstr_of_last hlast
    obtain ⟨hkey, hsuffix, -⟩ := controlKey_of_last hlast
    have hlt : w.length < v.length := by
      refine lt_of_le_of_ne hsuffix.length_le fun h => ?_
      have heq := hsuffix.eq_of_length h
      obtain ⟨rest, hrest⟩ := List.isPrefixOf_iff_prefix.mp hkey
      obtain ⟨rest', hrest'⟩ := List.isPrefixOf_iff_prefix.mp hvkey
      rw [← hrest, ← hrest'] at heq
      exact absurd (List.cons.inj heq).1 (by decide)
    have hsdp : 10 :: w <:+ v ↔ 10 :: w <:+ sdp :=
      ⟨fun h => h.trans hvsuffix, fun h => List.suffix_of_suffix_length_le h hvsuffix hlt⟩
    rw [Option.some_or, eq_comm, controlLine_of_lastControl hlast, hsdp]
    constructor
    · exact fun h => .inr ⟨w, rfl, h⟩
    · rintro (hnone | ⟨w', hw', h⟩)
      · exact absurd hnone hfound
      · cases hw'
        exact h

/-- In a section that the search takes for it. -/
theorem place_iff_of_inline (hstart : strstr sdp (ascii "m=video") = some start)
    (hline : lineAt (ascii "m=video") sdp = some v) (hne : start ≠ v) :
    sdpControlAt sdp = videoControlAt sdp ↔
      strstr start controlKey = none ∨
        (lastControl start = none ∧ strstr start controlKey = videoControlAt sdp) := by
  obtain ⟨hlong, hbelow⟩ := line_behind hstart hline hne
  rw [sdpControlAt_of_video hstart]
  cases hlast : lastControl start with
  | none =>
    rw [Option.none_or]
    constructor
    · exact fun h => .inr ⟨rfl, h⟩
    · rintro (hnone | ⟨-, h⟩)
      · -- No attribute is left for the line's section either.
        cases hu : videoControlAt sdp with
        | none => exact hnone
        | some u =>
          obtain ⟨hkey, hsuffix⟩ := videoControlAt_suffix hline hu
          rw [firstSuffix_none.mp hnone u (hsuffix.trans hbelow)] at hkey
          cases hkey
      · exact h
  | some w =>
    have hfound := strstr_of_last hlast
    have hfar := (controlKey_of_last hlast).2.2
    rw [Option.some_or]
    constructor
    · intro h
      have hshort := videoControlAt_length hline h.symm
      omega
    · rintro (hnone | ⟨hnone, -⟩)
      · exact absurd hnone hfound
      · cases hnone

theorem place_iff_plain (hstart : strstr sdp (ascii "m=video") = some start)
    (hline : lineAt (ascii "m=video") sdp = some v) :
    sdpControlAt sdp = videoControlAt sdp ↔ ControlPlain sdp start := by
  unfold ControlPlain
  by_cases hsame : start = v
  · subst hsame
    rw [place_iff_of_line hstart hline]
    refine or_congr_right ⟨fun h => .inl ⟨hline, h⟩, ?_⟩
    rintro (⟨-, h⟩ | ⟨hne, -⟩)
    · exact h
    · exact absurd hline hne
  · have hne : lineAt (ascii "m=video") sdp ≠ some start := by
      rw [hline]
      exact fun h => hsame (Option.some.inj h).symm
    rw [place_iff_of_inline hstart hline hsame]
    refine or_congr_right ⟨fun h => .inr ⟨hne, h⟩, ?_⟩
    rintro (⟨h, -⟩ | ⟨-, h⟩)
    · exact absurd h hne
    · exact h

/-- A description with a video section has an `m=video` that the search finds. -/
theorem strstr_of_line (hline : lineAt (ascii "m=video") sdp = some v) :
    ∃ start, strstr sdp (ascii "m=video") = some start := by
  obtain ⟨hkey, hv⟩ := lineAt_some hline
  have hvs : v <:+ sdp := by
    rcases hv with rfl | hv
    · exact List.suffix_rfl
    · exact (List.suffix_cons 10 v).trans hv
  cases hstart : strstr sdp (ascii "m=video") with
  | none =>
    rw [firstSuffix_none.mp hstart v hvs] at hkey
    cases hkey
  | some start => exact ⟨start, rfl⟩

/-- With the right place the string is the value when it fits. -/
theorem value_iff_fits {n : ℕ} (hn : 0 < n) (hplace : sdpControlAt sdp = videoControlAt sdp) :
    sdpControl sdp n = ((videoControlAt sdp).map controlValue).getD [] ↔
      ∀ t, videoControlAt sdp = some t → (controlValue t).length < n := by
  unfold sdpControl
  rw [hplace]
  cases hu : videoControlAt sdp with
  | none => simp
  | some u =>
    simp only [Option.map_some, Option.getD_some, Option.some.injEq, forall_eq']
    rw [List.take_eq_self_iff]
    omega

/-- The control string is that of the video section exactly when the search, which looks for text
anywhere in a line and for the first attribute without a bound, ends there, and it fits. -/
theorem sdp_control_faithful_iff {n : ℕ} (hn : 0 < n)
    (hvideo : lineAt (ascii "m=video") sdp ≠ none) :
    ControlFaithful sdp n ↔
      (∃ start, strstr sdp (ascii "m=video") = some start ∧ ControlPlain sdp start) ∧
        ∀ t, videoControlAt sdp = some t → (controlValue t).length < n := by
  obtain ⟨v, hline⟩ := Option.ne_none_iff_exists'.mp hvideo
  obtain ⟨start, hstart⟩ := strstr_of_line hline
  constructor
  · rintro ⟨hplace, hvalue⟩
    refine ⟨⟨start, hstart, (place_iff_plain hstart hline).mp hplace⟩, ?_⟩
    exact (value_iff_fits hn hplace).mp hvalue
  · rintro ⟨⟨start', hstart', hplain⟩, hfits⟩
    have hplace := (place_iff_plain hstart' hline).mpr hplain
    exact ⟨hplace, (value_iff_fits hn hplace).mpr hfits⟩

/-- A session with one control attribute for everything and one for the video. -/
theorem sdp_control_faithful_camera :
    let sdp := ascii "v=0\r\na=control:*\r\nm=video 0\r\na=x\r\na=control:track1\r\n"
    ControlFaithful sdp 256 :=
  (sdp_control_faithful_iff (by decide) (by decide +kernel)).mpr
    ⟨⟨ascii "m=video 0\r\na=x\r\na=control:track1\r\n", by decide +kernel,
      .inr (.inl ⟨by decide +kernel, ascii "a=control:track1\r\n", by decide +kernel,
        by decide +kernel⟩)⟩,
      fun t ht => by
        have hat : videoControlAt (ascii
            "v=0\r\na=control:*\r\nm=video 0\r\na=x\r\na=control:track1\r\n") =
            some (ascii "a=control:track1\r\n") := by decide +kernel
        rw [hat] at ht
        cases ht
        decide +kernel⟩

/-- A video section without a control attribute is set up with the control of the audio section. -/
theorem sdp_control_of_audio :
    let sdp := ascii "v=0\r\nm=video 0\r\na=x\r\nm=audio 0\r\na=control:track2\r\n"
    lineAt (ascii "m=video") sdp ≠ none ∧ videoControlAt sdp = none ∧
      sdpControl sdp 256 = ascii "track2" ∧ ¬ ControlFaithful sdp 256 := by
  refine ⟨by decide +kernel, by decide +kernel, by decide +kernel, fun h => ?_⟩
  exact absurd h.place (by decide +kernel)

end Search

end Stream
end ToonVpu
