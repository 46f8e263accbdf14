import ToonVpu.Stream.RtspUrl

/-!
# Digest — the challenge of a server (`rtsp_parse_digest_challenge` of `apps/vpu_stream.c`)

A server that wants credentials sends one or more `WWW-Authenticate` lines, each with some
challenges, and a challenge has a scheme and parameters.  The program does not take the lines apart:
from the first `WWW-Authenticate:` to the end of the headers it looks for the word `Digest`, for the
first `realm` and for the first `nonce` that stand by themselves before an equals sign.  They may
belong to another scheme, to another header, or stand inside a quoted value.
-/

namespace ToonVpu
namespace Stream

open Foundation
open Foundation.Text

/-! ## The program -/

def isBlank (c : UInt8) : Bool := c == 32 || c == 9

/-- `isalnum`. -/
def isAlnum (c : UInt8) : Bool :=
  isDigit c || (65 ≤ c && c ≤ 90) || (97 ≤ c && c ≤ 122)

/-- The characters that end a value without quotes. -/
def endsToken (c : UInt8) : Bool := c == 44 || c == 32 || c == 9 || c == 13 || c == 10

/-- `p` is not the start of `s`, and what stands before it belongs to a word. -/
def inWord (s p : List UInt8) : Bool :=
  decide (p.length ≠ s.length) &&
    match s[s.length - p.length - 1]? with
    | some c => isAlnum c || c == 95
    | none => false

/-- The text of a value behind its equals sign; `none` where a quote is not closed. -/
def valueText (q : List UInt8) : Option (List UInt8) :=
  let q := q.dropWhile isBlank
  if q.head? = some 34 then
    (strchr (q.drop 1) 34).map fun e => upTo (q.drop 1) e
  else
    some (q.takeWhile fun c => !endsToken c)

/-- What `rtsp_digest_param` leaves in `out` and returns, once it has found the value. -/
def digestValue (text : Option (List UInt8)) (outLen : ℕ) : List UInt8 × ℤ :=
  match text with
  | none => ([], -1)
  | some v =>
    let out := snprintfText outLen v
    (out, if out = [] then -1 else 0)

/-- The loop of `rtsp_digest_param` at the pointer `p`. -/
def digestParamLoop (s name : List UInt8) (outLen : ℕ) : ℕ → List UInt8 → List UInt8 × ℤ
  | 0, _ => ([], -1)
  | fuel + 1, p =>
    match strcasestr p name with
    | none => ([], -1)
    | some p =>
      let q := p.drop name.length
      -- The name of another parameter may end with this one.
      if inWord s p then
        digestParamLoop s name outLen fuel q
      else
        let q := q.dropWhile isBlank
        if q.head? ≠ some 61 then
          digestParamLoop s name outLen fuel q
        else
          digestValue (valueText (q.drop 1)) outLen

/-- `rtsp_digest_param`: each round takes at least the name. -/
def rtspDigestParam (s name : List UInt8) (outLen : ℕ) : List UInt8 × ℤ :=
  digestParamLoop s name outLen (s.length + 1) s

def authenticateKey : List UInt8 := ascii "WWW-Authenticate:"

/-- `rtsp_parse_digest_challenge`; no header stands for a null pointer. -/
def rtspParseDigestChallenge (hdr : Option (List UInt8)) (u : RtspUrl) : RtspUrl × ℤ :=
  match hdr.bind fun hdr => strcasestr hdr authenticateKey with
  | none => (u, -1)
  | some auth =>
    if strcasestr auth (ascii "Digest") = none then
      (u, -1)
    else
      let (realm, rc) := rtspDigestParam auth (ascii "realm") 128
      let u := { u with realm := realm }
      if rc < 0 then
        (u, -1)
      else
        let (nonce, rc) := rtspDigestParam auth (ascii "nonce") 128
        let u := { u with nonce := nonce }
        if rc < 0 then (u, -1) else (u, 0)

/-! ## Header blocks -/

/-- The characters of a line. -/
def isText (c : UInt8) : Bool := c != 0 && c != 10 && c != 13

/-- A parameter of a challenge, with the white space around its equals sign and what separates it
from the next one. -/
structure AuthParam where
  name : List UInt8
  before : List UInt8
  after : List UInt8
  quoted : Bool
  value : List UInt8
  sep : List UInt8
  name_ok : ∀ c ∈ name, isAlnum c = true ∨ c = 45 ∨ c = 95 := by decide +kernel
  before_ok : ∀ c ∈ before, isBlank c = true := by decide +kernel
  after_ok : ∀ c ∈ after, isBlank c = true := by decide +kernel
  value_ok : ∀ c ∈ value, isText c = true ∧ c ≠ 34 ∧ (quoted = false → endsToken c = false) := by
    decide +kernel
  token_ok : quoted = false → value ≠ [] := by decide +kernel
  sep_ok : ∀ c ∈ sep, isBlank c = true ∨ c = 44 := by decide +kernel

def AuthParam.text (p : AuthParam) : List UInt8 :=
  p.name ++ (p.before ++ (61 :: (p.after ++
    ((if p.quoted then 34 :: (p.value ++ [34]) else p.value) ++ p.sep))))

/-- A challenge: its scheme and its parameters, all but the last with a comma behind them. -/
structure Challenge where
  scheme : List UInt8
  gap : List UInt8
  params : List AuthParam
  scheme_ok : ∀ c ∈ scheme, isAlnum c = true ∨ c = 45 ∨ c = 95 := by decide +kernel
  gap_ok : ∀ c ∈ gap, isBlank c = true ∨ c = 44 := by decide +kernel
  apart : ∀ p ∈ params.dropLast, 44 ∈ p.sep := by decide +kernel

def Challenge.text (c : Challenge) : List UInt8 :=
  c.scheme ++ (c.gap ++ c.params.flatMap AuthParam.text)

/-- The first parameter of that name. -/
def Challenge.param (c : Challenge) (name : List UInt8) : Option (List UInt8) :=
  (c.params.find? fun p => p.name.map lower == name).map AuthParam.value

/-- A line of the headers. -/
inductive HeaderLine
  | authenticate (name lead : List UInt8) (challenges : List Challenge)
      (isName : name.map lower = (ascii "WWW-Authenticate").map lower)
      (lead_ok : ∀ c ∈ lead, isBlank c = true)
  /-- A status line or another header. -/
  | other (content : List UInt8) (content_ok : ∀ c ∈ content, isText c = true)
      (isOther : beginsWith authenticateKey content = false)

namespace HeaderLine

def text : HeaderLine → List UInt8
  | authenticate name lead challenges _ _ =>
    name ++ (58 :: (lead ++ (challenges.flatMap Challenge.text ++ [13, 10])))
  | other content _ _ => content ++ [13, 10]

def challenges : HeaderLine → List Challenge
  | authenticate _ _ challenges _ _ => challenges
  | other .. => []

end HeaderLine

/-- The lines and the empty line behind them. -/
def headerText (lines : List HeaderLine) : List UInt8 := lines.flatMap HeaderLine.text ++ [13, 10]

/-- A Digest challenge with a realm and a nonce that the program has room for. -/
structure UsableDigest (c : Challenge) (realm nonce : List UInt8) : Prop where
  scheme : c.scheme.map lower = (ascii "Digest").map lower
  has_realm : c.param (ascii "realm") = some realm
  has_nonce : c.param (ascii "nonce") = some nonce
  realm_size : 0 < realm.length ∧ realm.length < 128
  nonce_size : 0 < nonce.length ∧ nonce.length < 128

/-- Some line carries a usable Digest challenge with these parameters. -/
def Offers (lines : List HeaderLine) (realm nonce : List UInt8) : Prop :=
  ∃ line ∈ lines, ∃ c ∈ line.challenges, UsableDigest c realm nonce

/-- In the text `s`, the word `name` stands by itself before an equals sign where `t` begins. -/
def standsAt (s name t : List UInt8) : Bool :=
  beginsWith name t && !inWord s t && ((t.drop name.length).dropWhile isBlank).head? == some 61

/-- The value behind the first such place. -/
def firstStanding (s name : List UInt8) : Option (List UInt8) :=
  (firstSuffix (standsAt s name) s).bind fun t =>
    valueText (((t.drop name.length).dropWhile isBlank).drop 1)

/-- From the first `WWW-Authenticate:` on, the first place of the word has a value that is `v` in
its first 127 characters. -/
def FirstIs (lines : List HeaderLine) (word v : List UInt8) : Prop :=
  ∃ auth text, strcasestr (headerText lines) authenticateKey = some auth ∧
    firstStanding auth word = some text ∧ v = text.take 127

/-- From there on the text has the word `Digest`. -/
def SaysDigest (lines : List HeaderLine) : Prop :=
  ∃ auth, strcasestr (headerText lines) authenticateKey = some auth ∧
    strcasestr auth (ascii "Digest") ≠ none

/-- The first places of the words realm and nonce have the parameters of one usable Digest
challenge, when one is offered; and when none is, something is missing in the text. -/
structure WellLed (lines : List HeaderLine) : Prop where
  offered : (∃ realm nonce, Offers lines realm nonce) →
    ∃ realm nonce, Offers lines realm nonce ∧ FirstIs lines (ascii "realm") realm ∧
      FirstIs lines (ascii "nonce") nonce
  nothing : ¬ (∃ realm nonce, Offers lines realm nonce) → SaysDigest lines →
    (∃ v ≠ [], FirstIs lines (ascii "realm") v) → ¬ ∃ v ≠ [], FirstIs lines (ascii "nonce") v

/-- A name that the loop cannot miss: its occurrences do not overlap, and it does not begin with
white space. -/
structure Searchable (name : List UInt8) : Prop where
  unbordered : Unbordered (name.map lower)
  begins : ∃ c rest, name = c :: rest ∧ isBlank (lower c) = false

section Loop

variable {s name p t : List UInt8} {outLen : ℕ}

theorem lower_of_isBlank {c : UInt8} (h : isBlank c = true) : lower c = c := by
  simp only [isBlank, Bool.or_eq_true, beq_iff_eq] at h
  rcases h with rfl | rfl <;> rfl

/-- No place of the word begins with white space. -/
theorem standsAt_blank (hname : Searchable name) {x : UInt8} (hx : isBlank x = true) :
    standsAt s name (x :: t) = false := by
  obtain ⟨c, rest, rfl, hblank⟩ := hname.begins
  have hne : lower c ≠ lower x := by
    rw [lower_of_isBlank hx]
    rintro heq
    rw [heq, hx] at hblank
    cases hblank
  simp [standsAt, beginsWith, hne]

/-- So white space is skipped without loss. -/
theorem firstSuffix_dropWhile_isBlank (hname : Searchable name) (q : List UInt8) :
    firstSuffix (standsAt s name) q = firstSuffix (standsAt s name) (q.dropWhile isBlank) := by
  have hsplit := List.takeWhile_append_dropWhile (p := isBlank) (l := q)
  have hblanks : ∀ x ∈ q.takeWhile isBlank, isBlank x = true := by
    intro x hx
    exact List.all_eq_true.mp List.all_takeWhile x hx
  generalize q.takeWhile isBlank = a at hsplit hblanks
  generalize q.dropWhile isBlank = r at hsplit ⊢
  rw [← hsplit]
  apply firstSuffix_append_of_false
  rintro b (_ | ⟨x, c⟩) rfl hc
  · exact absurd rfl hc
  · exact standsAt_blank hname (hblanks x (by simp))

/-- Behind an occurrence of the name that is no place of it, the search goes on without loss. -/
theorem firstSuffix_drop_name (hname : Searchable name) (ht : beginsWith name t = true)
    (hnot : standsAt s name t = false) :
    firstSuffix (standsAt s name) t = firstSuffix (standsAt s name) (t.drop name.length) := by
  have hsplit := List.take_append_drop name.length t
  conv_lhs => rw [← hsplit]
  apply firstSuffix_append_of_false
  intro b c hbc hc
  -- the suffix begins inside the occurrence, so the name does not begin there again
  have hk : c ++ t.drop name.length = t.drop b.length := by
    conv_rhs => rw [← hsplit, hbc, List.append_assoc, List.drop_left]
  have hlt : b.length < name.length := by
    have hlen := congrArg List.length hbc
    have hpos := List.length_pos_of_ne_nil hc
    rw [List.length_take, List.length_append] at hlen
    omega
  rw [hk]
  rcases Nat.eq_zero_or_pos b.length with hzero | hpos
  · rw [hzero, List.drop_zero]
    exact hnot
  · simp [standsAt, beginsWith_drop_of_unbordered hname.unbordered ht hpos hlt]

/-- The loop finds the first place of the name, whatever else is in the text; its fuel does not run
out. -/
theorem digestParamLoop_eq (hname : Searchable name) (fuel : ℕ) (p : List UInt8)
    (hfuel : p.length < fuel) :
    digestParamLoop s name outLen fuel p =
      digestValue ((firstSuffix (standsAt s name) p).bind fun t =>
        valueText (((t.drop name.length).dropWhile isBlank).drop 1)) outLen := by
  -- By induction on the fuel: a place that does not count is passed over, the rest is searched.
  induction fuel generalizing p with
  | zero => omega
  | succ fuel ih =>
    have hwider : ∀ u, standsAt s name u = true → beginsWith name u = true := by
      intro u hu
      simp only [standsAt, Bool.and_eq_true] at hu
      exact hu.1.1
    unfold digestParamLoop
    cases hsearch : strcasestr p name with
    | none =>
      have hnone : firstSuffix (standsAt s name) p = none := by
        apply firstSuffix_none.mpr
        intro u hu
        have hnot := firstSuffix_none.mp hsearch u hu
        apply Bool.eq_false_iff.mpr
        intro hp
        rw [hwider u hp] at hnot
        cases hnot
      rw [hnone]
      rfl
    | some t =>
      have hbegins : beginsWith name t = true := firstSuffix_sat hsearch
      have hname0 : 0 < name.length := by
        obtain ⟨c, rest, rfl, -⟩ := hname.begins
        simp
      have hlen : (t.drop name.length).length < fuel := by
        have hsuffix := (firstSuffix_suffix hsearch).length_le
        have hprefix := (List.isPrefixOf_iff_prefix.mp hbegins).length_le
        rw [List.length_map, List.length_map] at hprefix
        rw [List.length_drop]
        omega
      have hrest : (standsAt s name t = false) → digestParamLoop s name outLen fuel
          (t.drop name.length) = digestValue ((firstSuffix (standsAt s name) p).bind fun t =>
            valueText (((t.drop name.length).dropWhile isBlank).drop 1)) outLen := by
        intro hnot
        rw [ih _ hlen, firstSuffix_of_wider hwider hsearch,
          firstSuffix_drop_name hname hbegins hnot]
      simp only
      by_cases hword : inWord s t = true
      · rw [if_pos hword]
        exact hrest (by simp [standsAt, hword])
      rw [if_neg hword]
      by_cases hequals : ((t.drop name.length).dropWhile isBlank).head? = some 61
      · have hstands : standsAt s name t = true := by
          simp [standsAt, hbegins, hword, hequals]
        rw [if_neg (not_not.mpr hequals), firstSuffix_of_wider hwider hsearch,
          firstSuffix_self hstands]
        rfl
      · have hnot : standsAt s name t = false := by
          simp [standsAt, hequals]
        rw [if_pos hequals, ← hrest hnot, ih _ hlen, ih _ ?_,
          ← firstSuffix_dropWhile_isBlank hname]
        exact lt_of_le_of_lt (List.dropWhile_suffix _).length_le hlen

theorem rtspDigestParam_eq (hname : Searchable name) (s : List UInt8) (outLen : ℕ) :
    rtspDigestParam s name outLen = digestValue (firstStanding s name) outLen :=
  digestParamLoop_eq hname (s.length + 1) s (Nat.lt_succ_self _)

theorem searchable_realm : Searchable (ascii "realm") :=
  ⟨by decide, _, _, rfl, by decide⟩

theorem searchable_nonce : Searchable (ascii "nonce") :=
  ⟨by decide, _, _, rfl, by decide⟩

end Loop

/-! ## What the program takes -/

section Parse

variable {lines : List HeaderLine} {u : RtspUrl} {realm nonce : List UInt8}

theorem FirstIs.unique {word v w : List UInt8} (h : FirstIs lines word v)
    (h' : FirstIs lines word w) : v = w := by
  obtain ⟨auth, text, hauth, htext, rfl⟩ := h
  obtain ⟨auth', text', hauth', htext', rfl⟩ := h'
  obtain rfl := Option.some.inj (hauth.symm.trans hauth')
  obtain rfl := Option.some.inj (htext.symm.trans htext')
  rfl

end Parse

section Own

variable {auth word pre post : List UInt8} {p : AuthParam}

/-- A value is read back as it was written. -/
theorem valueText_param (hpost : p.quoted = false → ∀ x ∈ (p.sep ++ post).head?,
    endsToken x = true) :
    valueText (p.after ++ ((if p.quoted then 34 :: (p.value ++ [34]) else p.value) ++ p.sep ++
      post)) = some p.value := by
  unfold valueText
  rw [List.dropWhile_append_of_pos p.after_ok]
  cases hquoted : p.quoted with
  | true =>
    have hclose : strchr (p.value ++ 34 :: (p.sep ++ post)) 34 = some (34 :: (p.sep ++ post)) :=
      strchr_eq_some_iff.mpr
        ⟨p.value, _, rfl, rfl, fun hmem => (p.value_ok 34 hmem).2.1 rfl⟩
    have hquote : isBlank 34 = false := rfl
    simp [hclose, hquote, upTo]
  | false =>
    obtain ⟨x, rest, hvalue⟩ := List.exists_cons_of_ne_nil (p.token_ok hquoted)
    have htoken : ∀ y ∈ p.value, endsToken y = false := fun y hy =>
      (p.value_ok y hy).2.2 hquoted
    have hx : endsToken x = false := htoken x (by simp [hvalue])
    have hblank : isBlank x = false := by
      simp only [endsToken, Bool.or_eq_false_iff] at hx
      simp [isBlank, hx]
    have hquote : x ≠ 34 := (p.value_ok x (by simp [hvalue])).2.1
    have hstop : (p.sep ++ post).takeWhile (fun c => !endsToken c) = [] := by
      have hend := hpost hquoted
      cases hrest : p.sep ++ post with
      | nil => rfl
      | cons y ys =>
        rw [hrest] at hend
        exact List.takeWhile_cons_of_neg (by simp [hend y rfl])
    have hall : (p.value ++ (p.sep ++ post)).takeWhile (fun c => !endsToken c) = p.value := by
      rw [List.takeWhile_append_of_pos fun y hy => by simp [htoken y hy], hstop,
        List.append_nil]
    rw [hvalue] at hall ⊢
    simpa [hblank, hquote] using hall

/-- In the text `auth`, a parameter that is named by the word stands before any other place of the
word. -/
structure OwnFirst (auth word : List UInt8) (p : AuthParam) (pre post : List UInt8) : Prop where
  text : auth = pre ++ (p.text ++ post)
  name : p.name.map lower = word.map lower
  apart : ∀ c ∈ pre.getLast?, (isAlnum c || c == 95) = false
  ends : p.quoted = false → ∀ x ∈ (p.sep ++ post).head?, endsToken x = true
  first : ∀ a b, pre = a ++ b → b ≠ [] → standsAt auth word (b ++ (p.text ++ post)) = false

theorem OwnFirst.standing (h : OwnFirst auth word p pre post) :
    firstStanding auth word = some p.value := by
  have hlength : word.length = p.name.length := by
    simpa using (congrArg List.length h.name).symm
  have hequals : isBlank 61 = false := rfl
  -- Behind the name come blanks, the equals sign and the value.
  have hbehind : ((p.text ++ post).drop word.length).dropWhile isBlank =
      61 :: (p.after ++ ((if p.quoted then 34 :: (p.value ++ [34]) else p.value) ++ p.sep ++
        post)) := by
    rw [hlength, AuthParam.text, List.append_assoc, List.drop_left, List.append_assoc,
      List.dropWhile_append_of_pos p.before_ok, List.cons_append, List.dropWhile_cons_of_neg]
    · simp
    · simp [hequals]
  -- The byte before the name is no part of a word.
  have hword : inWord auth (p.text ++ post) = false := by
    rw [h.text]
    unfold inWord
    cases hpre : pre.getLast? with
    | none =>
      rw [List.getLast?_eq_none_iff] at hpre
      simp [hpre]
    | some c =>
      have hapart := h.apart c hpre
      obtain ⟨init, rfl⟩ := List.getLast?_eq_some_iff.mp hpre
      have hindex : (init ++ [c] ++ (p.text ++ post))[(init ++ [c] ++ (p.text ++ post)).length -
          (p.text ++ post).length - 1]? = some c := by
        rw [List.length_append, Nat.add_sub_cancel, List.length_append, List.length_singleton,
          Nat.add_sub_cancel, List.append_assoc, List.getElem?_append_right (le_refl _)]
        simp
      rw [hindex]
      simp [hapart]
  have hstands : standsAt auth word (p.text ++ post) = true := by
    have hbegins : beginsWith word (p.text ++ post) = true := by
      rw [AuthParam.text, List.append_assoc]
      exact beginsWith_append (beginsWith_of_lower h.name) _
    simp [standsAt, hbegins, hword, hbehind]
  have hfirst : firstSuffix (standsAt auth word) auth = some (p.text ++ post) :=
    firstSuffix_eq_some_iff.mpr ⟨hstands, pre, h.text, h.first⟩
  unfold firstStanding
  rw [hfirst, Option.bind_some, hbehind]
  exact valueText_param h.ends

/-- Where the realm and the nonce of a usable Digest challenge stand first, the program finds it. -/
theorem wellLed_of_ownFirst {lines : List HeaderLine} {p q : AuthParam}
    {pre' post' : List UInt8}
    (hoffers : Offers lines p.value q.value)
    (hauth : strcasestr (headerText lines) authenticateKey = some auth)
    (hp : OwnFirst auth (ascii "realm") p pre post)
    (hq : OwnFirst auth (ascii "nonce") q pre' post') : WellLed lines := by
  obtain ⟨line, hline, c, hc, husable⟩ := hoffers
  have hrealm : p.value = p.value.take 127 :=
    (List.take_of_length_le (Nat.lt_succ_iff.mp husable.realm_size.2)).symm
  have hnonce : q.value = q.value.take 127 :=
    (List.take_of_length_le (Nat.lt_succ_iff.mp husable.nonce_size.2)).symm
  have hany : Offers lines p.value q.value := ⟨line, hline, c, hc, husable⟩
  exact ⟨fun _ => ⟨p.value, q.value, hany, ⟨auth, p.value, hauth, hp.standing, hrealm⟩,
    ⟨auth, q.value, hauth, hq.standing, hnonce⟩⟩, fun hno => absurd ⟨_, _, hany⟩ hno⟩

end Own

end Stream
end ToonVpu
