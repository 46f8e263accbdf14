import ToonVpu.Foundation.Exchange
import ToonVpu.Stream.Digest
import ToonVpu.Stream.Md5
import ToonVpu.Stream.RtspRead

/-!
# RtspSend — requests on the RTSP connection (`rtsp_send` of `apps/vpu_stream.c`)

A request is a line with its method and its URL, some header lines and an empty line.  It is put
together in an array and written with as many calls of `write` as it takes.  Once the server has sent
a challenge, each request has the answer to it.

* `writeAll`, `rtspMakeDigestAuth`, `rtspSend`: the code;
* `RtspRequest`: the parts of a request, and its text;
* `rtspSend_eq`: the arrays are large enough for every request of the program;
* `RtspRequest.isBlock_iff`: when a request ends where it should.
-/

namespace ToonVpu
namespace Stream

open Foundation
open Foundation.Text
open Foundation.Blocks

/-! ## Strings -/

def crlf : List UInt8 := [13, 10]

/-- `%d`. -/
def decimal (n : ℤ) : List UInt8 :=
  let digits := (Nat.toDigits 10 n.natAbs).map Char.toUInt8
  if n < 0 then 45 :: digits else digits

/-- A string that `snprintf` makes does not fit an array of `size` bytes, or is empty. -/
def Cut (size : ℕ) (s : List UInt8) : Prop := s.length ≤ 0 ∨ size ≤ s.length

instance (size : ℕ) (s : List UInt8) : Decidable (Cut size s) :=
  inferInstanceAs (Decidable (_ ∨ _))

/-- The string in an array of up to 640 bytes that `snprintf` filled. -/
def arrayString (s : List UInt8) : CString :=
  ⟨⟨(snprintfText 640 s).takeWhile (· ≠ 0), by
    have h := (List.takeWhile_prefix (l := snprintfText 640 s) (· ≠ 0)).length_le
    have h' : (snprintfText 640 s).length ≤ 639 := List.length_take_le _ _
    omega⟩, fun h => by simpa using List.mem_takeWhile_imp h⟩

/-- `md5_hex` of the string in an array; the terminator is left out. -/
def md5Text (stack : Md5Ctx) (s : List UInt8) : List UInt8 := (md5Hex stack (arrayString s)).dropLast

/-! ## The program -/

section Send

variable {σ : Type} (peer : Peer UInt8 σ) (stack : Md5Ctx)

/-- The header line with the answer to a challenge. -/
def digestLine (u : RtspUrl) (url resp : List UInt8) : List UInt8 :=
  ascii "Authorization: Digest username=\"" ++ u.user ++ ascii "\", realm=\"" ++ u.realm ++
    ascii "\", nonce=\"" ++ u.nonce ++ ascii "\", uri=\"" ++ url ++ ascii "\", response=\"" ++
    resp ++ ascii "\"\r\n"

/-- `rtsp_make_digest_auth`: `dst` and what it returns. -/
def rtspMakeDigestAuth (dst : List UInt8) (dstLen : ℕ) (url : List UInt8) (u : RtspUrl)
    (method : List UInt8) : List UInt8 × ℤ :=
  if u.user = [] ∨ u.nonce = [] ∨ u.realm = [] then
    -- The camera has asked for no digest, or there is no user.
    (dst, 0)
  else
    let a1 := u.user ++ [58] ++ u.realm ++ [58] ++ u.pass
    if Cut 384 a1 then
      (dst, -1)
    else
      let a2 := method ++ [58] ++ url
      if Cut 640 a2 then
        (dst, -1)
      else
        let ha1 := md5Text stack a1
        let ha2 := md5Text stack a2
        let respIn := ha1 ++ [58] ++ u.nonce ++ [58] ++ ha2
        if Cut 256 respIn then
          (dst, -1)
        else
          let resp := md5Text stack respIn
          let line := digestLine u url resp
          (snprintfText dstLen line, if Cut dstLen line then -1 else 1)

/-- What a request is made of. -/
structure RtspRequest where
  method : List UInt8
  url : List UInt8
  cseq : ℤ
  auth : List UInt8
  extra : List UInt8
  deriving DecidableEq, Repr

/-- The request line and the header lines that are always the same. -/
def RtspRequest.front (r : RtspRequest) : List UInt8 :=
  r.method ++ [32] ++ r.url ++ ascii " RTSP/1.0\r\nCSeq: " ++ decimal r.cseq ++
    ascii "\r\nUser-Agent: toon-vpu-stream\r\n"

def RtspRequest.text (r : RtspRequest) : List UInt8 := r.front ++ r.auth ++ r.extra ++ crlf

/-- `auth` in `rtsp_send`; `none` stands for the return of `-1`. -/
def rtspAuth (url : List UInt8) (u : RtspUrl) (method : List UInt8) : Option (List UInt8) :=
  let (auth, authType) := rtspMakeDigestAuth stack [] 1200 url u method
  if authType < 0 then
    none
  else if authType = 0 ∧ u.auth ≠ [] then
    let line := ascii "Authorization: Basic " ++ u.auth ++ crlf
    if Cut 1200 line then none else some line
  else
    some auth

/-- `rtsp_send`: whether it succeeds, `cseq`, and the connection.  The request is returned when it
was put together. -/
def rtspSend (x : Exchange UInt8 σ) (url : List UInt8) (u : RtspUrl) (cseq : ℤ)
    (method extra : List UInt8) : Option RtspRequest × Bool × ℤ × Exchange UInt8 σ :=
  match rtspAuth stack url u method with
  | none => (none, false, cseq, x)
  | some auth =>
    let request : RtspRequest := ⟨method, url, cseq, auth, extra⟩
    if Cut 3072 request.text then
      (none, false, cseq + 1, x)
    else
      let (ok, x) := x.writeAll peer request.text
      (some request, ok, cseq + 1, x)

end Send

/-! ## The arrays -/

/-- A string in an array of `size` bytes. -/
def InArray (size : ℕ) (s : List UInt8) : Prop := s.length < size ∧ 0 ∉ s

instance (size : ℕ) (s : List UInt8) : Decidable (InArray size s) :=
  inferInstanceAs (Decidable (_ ∧ _))

/-- The strings of `struct rtsp_url` are in their arrays, and the port is an `int`. -/
structure RtspUrl.InArrays (u : RtspUrl) : Prop where
  host : InArray 128 u.host
  path : InArray 256 u.path
  auth : InArray 192 u.auth
  user : InArray 96 u.user
  pass : InArray 96 u.pass
  realm : InArray 128 u.realm
  nonce : InArray 128 u.nonce
  port : -2147483648 ≤ u.port ∧ u.port ≤ 2147483647

/-- What the program sends of it has a property besides. -/
structure RtspUrl.Sound (p : List UInt8 → Prop) (u : RtspUrl) : Prop extends RtspUrl.InArrays u where
  host_p : p u.host
  path_p : p u.path
  user_p : p u.user
  realm_p : p u.realm
  nonce_p : p u.nonce
  auth_plain : ∀ c ∈ u.auth, c ∉ crlf

/-- What holds of a text holds of its parts. -/
def InfixClosed (p : List UInt8 → Prop) : Prop := ∀ a b, a <:+: b → p b → p a

section Arrays

variable {s t : List UInt8} {size m n : ℕ} {u v : RtspUrl} {p : List UInt8 → Prop}

theorem InArray.nil (h : 0 < n) : InArray n [] := ⟨h, List.not_mem_nil⟩

theorem InArray.sublist (h : 0 ∉ s) (hsub : t.Sublist s) (hlen : t.length < n) : InArray n t :=
  ⟨hlen, fun h0 => h (hsub.subset h0)⟩

theorem inArray_snprintf (hsize : 0 < size) (h : 0 ∉ s) : InArray size (snprintfText size s) := by
  refine .sublist h (List.take_sublist _ _) ?_
  have hlen : (snprintfText size s).length ≤ size - 1 := List.length_take_le _ _
  omega

theorem decimal_length {k : ℤ} (hk : -2147483648 ≤ k ∧ k ≤ 2147483647) :
    (decimal k).length ≤ 11 := by
  have hdigits : (Nat.toDigits 10 k.natAbs).length ≤ 10 :=
    (Nat.length_toDigits_le_iff (by decide) (by decide)).mpr (by omega)
  unfold decimal
  split <;> simp <;> omega

theorem RtspUrl.Sound.empty (hnil : p []) : RtspUrl.empty.Sound p :=
  ⟨⟨.nil (by decide), .nil (by decide), .nil (by decide), .nil (by decide), .nil (by decide),
    .nil (by decide), .nil (by decide), by decide⟩, hnil, hnil, hnil, hnil, hnil,
    by simp [RtspUrl.empty]⟩

theorem b64EncodeBasic_inArray (s : List UInt8) :
    InArray 192 (b64EncodeBasic s 192) ∧ ∀ c ∈ b64EncodeBasic s 192, c ∉ crlf := by
  rw [b64EncodeBasic_eq]
  refine ⟨⟨?_, fun h0 => ?_⟩, ?_⟩
  · rw [Base64.encode_length, List.length_take]
    omega
  · exact Base64.forall_mem_encode (p := (· ≠ 0)) (by decide +kernel) (by decide) _ 0 h0 rfl
  · exact Base64.forall_mem_encode (p := (· ∉ crlf)) (by decide +kernel) (by decide) _

theorem parseUserpass_sound (hclosed : InfixClosed p) (h0 : 0 ∉ s) (hs : p s) (hu : u.Sound p)
    (h : parseUserpass u s = some v) : v.Sound p := by
  unfold parseUserpass at h
  split at h
  · cases h
  have hauth := b64EncodeBasic_inArray (snprintfText 192 s)
  cases hcolon : strchr s 58 with
  | none =>
    simp only [hcolon] at h
    cases h
    exact { hu with auth := hauth.1, auth_plain := hauth.2 }
  | some colon =>
    obtain ⟨pre, rest, rfl, rfl, -⟩ := strchr_eq_some_iff.mp hcolon
    simp only [hcolon, upTo_append] at h
    split at h
    · cases h
    · rename_i hsizes
      simp only [not_or, Nat.not_le, List.drop_succ_cons, List.drop_zero] at hsizes
      cases h
      exact { hu with
        auth := hauth.1
        auth_plain := hauth.2
        user := .sublist h0 (List.sublist_append_left _ _) hsizes.2.1
        pass := .sublist h0 ((List.sublist_cons_self _ _).trans (List.sublist_append_right _ _))
          hsizes.2.2
        user_p := hclosed _ _ (List.prefix_append _ _).isInfix hs }

theorem parseHostport_sound (hclosed : InfixClosed p) (h0 : 0 ∉ s) (hs : p s) (ht0 : 0 ∉ t)
    (ht : p t) (hu : u.Sound p) (h : parseHostport u s t = some v) : v.Sound p := by
  have hpath : InArray 256 (snprintfText 256 t) := inArray_snprintf (by decide) ht0
  have hpath_p : p (snprintfText 256 t) := hclosed _ _ (List.take_prefix _ _).isInfix ht
  unfold parseHostport at h
  split at h
  · cases h
  cases hcolon : strrchr s 58 with
  | none =>
    simp only [hcolon] at h
    split at h
    · cases h
    · rename_i hsize
      cases h
      exact { hu with
        host := ⟨Nat.not_le.mp hsize, h0⟩, path := hpath, host_p := hs, path_p := hpath_p }
  | some q =>
    obtain ⟨pre, rest, rfl, rfl, -⟩ := strrchr_eq_some_iff.mp hcolon
    simp only [hcolon, upTo_append] at h
    split at h
    · cases h
    · rename_i hsize
      cases h
      exact { hu with
        host := .sublist h0 (List.sublist_append_left _ _) (Nat.not_le.mp hsize)
        path := hpath
        port := by
          unfold atoi
          simp only
          omega
        host_p := hclosed _ _ (List.prefix_append _ _).isInfix hs
        path_p := hpath_p }

/-- What `parse_rtsp_url` leaves in the record. -/
theorem parseRtspUrl_sound (hclosed : InfixClosed p) (h0 : 0 ∉ s) (hs : p s)
    (h : parseRtspUrl s = some u) : u.Sound p := by
  unfold parseRtspUrl at h
  split at h
  · cases h
  have hrest : 0 ∉ s.drop 7 := fun hmem => h0 (List.mem_of_mem_drop hmem)
  have hrest_p : p (s.drop 7) := hclosed _ _ (List.drop_suffix _ _).isInfix hs
  have hempty : RtspUrl.empty.Sound p := .empty (hclosed _ _ List.nil_infix hs)
  simp only at h
  generalize s.drop 7 = rest at h hrest hrest_p
  -- The path begins at the first slash.
  cases hslash : strchr rest 47 with
  | none =>
    simp only [hslash] at h
    cases h
  | some slash =>
    obtain ⟨authority, path, rfl, rfl, -⟩ := strchr_eq_some_iff.mp hslash
    have hparts : 0 ∉ authority ∧ 0 ∉ 47 :: path := by
      simpa only [List.mem_append, not_or] using hrest
    have hauthority : p authority := hclosed _ _ (List.prefix_append _ _).isInfix hrest_p
    have hpath : p (47 :: path) := hclosed _ _ (List.suffix_append _ _).isInfix hrest_p
    simp only [hslash, upTo_append] at h
    -- Credentials stand before an at sign.
    cases hsign : strchr authority 64 with
    | none =>
      simp only [hsign] at h
      exact parseHostport_sound hclosed hparts.1 hauthority hparts.2 hpath hempty h
    | some sign =>
      obtain ⟨ui, hostport, rfl, rfl, -⟩ := strchr_eq_some_iff.mp hsign
      simp only [hsign, upTo_append, List.drop_succ_cons, List.drop_zero] at h
      have hinfo : 0 ∉ ui ∧ 0 ∉ hostport := by
        have h := hparts.1
        simp only [List.mem_append, List.mem_cons, not_or] at h
        exact ⟨h.1, h.2.2⟩
      have hui : p ui := hclosed _ _ (List.prefix_append _ _).isInfix hauthority
      have hhost : p hostport :=
        hclosed _ _ ((List.suffix_cons _ _).trans (List.suffix_append _ _)).isInfix hauthority
      cases huser : parseUserpass .empty ui with
      | none =>
        simp only [huser] at h
        cases h
      | some w =>
        simp only [huser] at h
        exact parseHostport_sound hclosed hinfo.2 hhost hparts.2 hpath
          (parseUserpass_sound hclosed hinfo.1 hui hempty huser) h

end Arrays

/-! ## The digits of a digest -/

/-- A digest is sent as the digits of its bytes. -/
def md5Digits (s : List UInt8) : List UInt8 := (Md5.hex (Md5.digest s)).map Char.toUInt8

section Digits

variable {s : List UInt8}

theorem arrayString_val (h : InArray 640 s) : (arrayString s).val.val = s := by
  have hshort : snprintfText 640 s = s := List.take_of_length_le (by have := h.1; omega)
  have hall : ∀ c ∈ s, decide (c ≠ 0) = true := fun c hc => decide_eq_true fun h0 => h.2 (h0 ▸ hc)
  show (snprintfText 640 s).takeWhile (· ≠ 0) = s
  rw [hshort]
  exact List.takeWhile_eq_self_iff.mpr hall

theorem highDigit (x : UInt8) : (x >>> 4).toNat = x.toNat / 16 ∧ x.toNat / 16 < 16 := by
  have hx := x.toNat_lt
  refine ⟨?_, by omega⟩
  rw [UInt8.toNat_shiftRight, Nat.shiftRight_eq_div_pow]
  rfl

theorem lowDigit (x : UInt8) : (x &&& 15).toNat = x.toNat % 16 ∧ x.toNat % 16 < 16 := by
  refine ⟨?_, Nat.mod_lt _ (by decide)⟩
  rw [UInt8.toNat_and]
  exact Nat.and_two_pow_sub_one_eq_mod _ 4

/-- `md5_hex` writes the digits. -/
theorem md5Text_digits (stack : Md5Ctx) (s : List UInt8) :
    md5Text stack s = md5Digits (arrayString s).val.val := by
  have hafter := md5Update_after (md5Init_after stack) (arrayString s).val
  rw [List.nil_append] at hafter
  unfold md5Text md5Hex md5Digits Md5.hex
  rw [md5Final_eq hafter, List.dropLast_concat, List.map_flatMap]
  congr 1
  funext x
  have hhigh := highDigit x
  have hlow := lowDigit x
  rw [hhigh.1, hlow.1, hexTable_eq _ hhigh.2, hexTable_eq _ hlow.2]
  rfl

theorem md5Text_eq (stack : Md5Ctx) (h : InArray 640 s) : md5Text stack s = md5Digits s := by
  rw [md5Text_digits, arrayString_val h]

theorem md5Digits_length (s : List UInt8) : (md5Digits s).length = 32 := by
  simp [md5Digits, Md5.hex, Md5.digest, Md5.Regs.bytes, Md5.lowBytes, List.length_flatMap,
    Function.comp_def]

theorem md5Digits_digit (s : List UInt8) : ∀ c ∈ md5Digits s, isAlnum c = true := by
  have hdigit : ∀ n < 16, isAlnum (Nat.digitChar n).toUInt8 = true := by decide +kernel
  intro c hc
  rw [md5Digits, Md5.hex, List.map_flatMap, List.mem_flatMap] at hc
  rcases hc with ⟨x, -, hx⟩
  have hx' := x.toNat_lt
  simp only [List.map_cons, List.map_nil, List.mem_cons, List.not_mem_nil, or_false] at hx
  rcases hx with rfl | rfl <;> exact hdigit _ (by omega)

theorem md5Digits_inArray (s : List UInt8) : InArray 33 (md5Digits s) := by
  refine ⟨by rw [md5Digits_length]; decide, fun h0 => ?_⟩
  exact absurd (md5Digits_digit s 0 h0) (by decide)

end Digits

/-! ## Requests -/

/-- The answer to a challenge, as a server computes it that knows the password. -/
def digestResponse (user realm pass nonce method url : List UInt8) : List UInt8 :=
  md5Digits (md5Digits (user ++ [58] ++ realm ++ [58] ++ pass) ++ [58] ++ nonce ++ [58] ++
    md5Digits (method ++ [58] ++ url))

/-- There is a challenge to answer, and a user to answer it. -/
def RtspUrl.Challenged (u : RtspUrl) : Prop := u.user ≠ [] ∧ u.nonce ≠ [] ∧ u.realm ≠ []

instance (u : RtspUrl) : Decidable u.Challenged := inferInstanceAs (Decidable (_ ∧ _))

/-- The credentials of a request. -/
def credentials (u : RtspUrl) (method url : List UInt8) : List UInt8 :=
  if u.Challenged then
    digestLine u url (digestResponse u.user u.realm u.pass u.nonce method url)
  else if u.auth ≠ [] then
    ascii "Authorization: Basic " ++ u.auth ++ crlf
  else
    []

section Requests

variable {σ : Type} {stack : Md5Ctx} {u : RtspUrl} {url method extra : List UInt8} {k : ℤ}

theorem not_cut {size : ℕ} {s : List UInt8} (hpos : 0 < s.length) (hlen : s.length < size) :
    ¬ Cut size s := by
  rintro (h | h) <;> omega

theorem inArray_colon {m n : ℕ} {s t : List UInt8} (hs : InArray m s) (ht : InArray n t) :
    InArray (m + n) (s ++ [58] ++ t) := by
  refine ⟨?_, ?_⟩
  · have h := hs.1
    have h' := ht.1
    simp only [List.length_append, List.length_singleton]
    omega
  · simp only [List.mem_append, List.mem_singleton, not_or]
    exact ⟨⟨hs.2, by decide⟩, ht.2⟩

theorem InArray.mono {m n : ℕ} {s : List UInt8} (h : InArray m s) (hmn : m ≤ n) : InArray n s :=
  ⟨Nat.lt_of_lt_of_le h.1 hmn, h.2⟩

theorem digestLine_length (u : RtspUrl) (url resp : List UInt8) :
    (digestLine u url resp).length =
      76 + u.user.length + u.realm.length + u.nonce.length + url.length + resp.length := by
  have hfixed : (ascii "Authorization: Digest username=\"").length = 32 ∧
      (ascii "\", realm=\"").length = 10 ∧ (ascii "\", nonce=\"").length = 10 ∧
      (ascii "\", uri=\"").length = 8 ∧ (ascii "\", response=\"").length = 13 ∧
      (ascii "\"\r\n").length = 3 := by decide +kernel
  simp only [digestLine, List.length_append, hfixed]
  omega

/-- No digest is cut, and neither is the line with the answer. -/
theorem rtspMakeDigestAuth_eq (hu : u.InArrays) (hurl : InArray 512 url)
    (hmethod : InArray 17 method) (dst : List UInt8) :
    rtspMakeDigestAuth stack dst 1200 url u method =
      if u.Challenged then (credentials u method url, 1) else (dst, 0) := by
  by_cases hch : u.Challenged
  · have hnone : ¬ (u.user = [] ∨ u.nonce = [] ∨ u.realm = []) := by
      rintro (h | h | h)
      · exact hch.1 h
      · exact hch.2.1 h
      · exact hch.2.2 h
    have ha1 : InArray 384 (u.user ++ [58] ++ u.realm ++ [58] ++ u.pass) :=
      (inArray_colon (inArray_colon hu.user hu.realm) hu.pass).mono (by decide)
    have ha2 : InArray 640 (method ++ [58] ++ url) := (inArray_colon hmethod hurl).mono (by decide)
    have hresp (s t : List UInt8) :
        InArray 256 (md5Digits s ++ [58] ++ u.nonce ++ [58] ++ md5Digits t) :=
      (inArray_colon (inArray_colon (md5Digits_inArray s) hu.nonce) (md5Digits_inArray t)).mono
        (by decide)
    have hpos (s t : List UInt8) : 0 < (s ++ [58] ++ t).length := by
      rw [List.length_append, List.length_append, List.length_singleton]
      omega
    have hline (s : List UInt8) : ¬ Cut 1200 (digestLine u url (md5Digits s)) ∧
        snprintfText 1200 (digestLine u url (md5Digits s)) = digestLine u url (md5Digits s) := by
      have h₁ := hu.user.1
      have h₂ := hu.realm.1
      have h₃ := hu.nonce.1
      have h₄ := hurl.1
      have hlen := digestLine_length u url (md5Digits s)
      rw [md5Digits_length] at hlen
      exact ⟨not_cut (by omega) (by omega), List.take_of_length_le (by omega)⟩
    rw [if_pos hch, rtspMakeDigestAuth, if_neg hnone]
    simp only [if_neg (not_cut (hpos _ _) ha1.1), if_neg (not_cut (hpos _ _) ha2.1),
      md5Text_eq stack (ha1.mono (by decide)), md5Text_eq stack ha2,
      if_neg (not_cut (hpos _ _) (hresp _ _).1), md5Text_eq stack ((hresp _ _).mono (by decide)),
      if_neg (hline _).1, (hline _).2, credentials, if_pos hch, digestResponse]
  · have hnone : u.user = [] ∨ u.nonce = [] ∨ u.realm = [] := by
      by_contra hall
      rw [not_or, not_or] at hall
      exact hch hall
    rw [if_neg hch, rtspMakeDigestAuth, if_pos hnone]

theorem basicLine_length (auth : List UInt8) :
    (ascii "Authorization: Basic " ++ auth ++ crlf).length = 23 + auth.length := by
  have hfixed : (ascii "Authorization: Basic ").length = 21 := by decide +kernel
  simp only [List.length_append, hfixed, crlf, List.length_cons, List.length_nil]
  omega

/-- Every request has its credentials. -/
theorem rtspAuth_eq (hu : u.InArrays) (hurl : InArray 512 url) (hmethod : InArray 17 method) :
    rtspAuth stack url u method = some (credentials u method url) := by
  unfold rtspAuth
  rw [rtspMakeDigestAuth_eq hu hurl hmethod]
  by_cases hch : u.Challenged
  · simp [hch]
  · by_cases hauth : u.auth = []
    · simp [hch, hauth, credentials]
    · have hlen := hu.auth.1
      have hlong := basicLine_length u.auth
      have hnot : ¬ Cut 1200 (ascii "Authorization: Basic " ++ u.auth ++ crlf) :=
        not_cut (by omega) (by omega)
      simp only [if_neg hch, credentials, hauth, ne_eq, not_false_eq_true, and_self, if_true,
        if_neg hnot]
      exact if_neg (by decide)

theorem credentials_length (hu : u.InArrays) (hurl : InArray 512 url) :
    (credentials u method url).length ≤ 968 := by
  have h₁ := hu.user.1
  have h₂ := hu.realm.1
  have h₃ := hu.nonce.1
  have h₄ := hu.auth.1
  have h₅ := hurl.1
  unfold credentials
  split
  · rw [digestLine_length, digestResponse, md5Digits_length]
    omega
  · split
    · rw [basicLine_length]
      omega
    · exact Nat.zero_le _

/-- What the program sends: a method and a header line of its own, to an URL in its array. -/
structure RtspRequest.Sized (r : RtspRequest) : Prop where
  method : InArray 17 r.method
  url : InArray 512 r.url
  extra : InArray 192 r.extra
  cseq : -2147483648 ≤ r.cseq ∧ r.cseq ≤ 2147483647
  auth : r.auth.length ≤ 968

theorem RtspRequest.text_length {r : RtspRequest} (h : r.Sized) :
    0 < r.text.length ∧ r.text.length < 3072 := by
  have hfixed : (ascii " RTSP/1.0\r\nCSeq: ").length = 17 ∧
      (ascii "\r\nUser-Agent: toon-vpu-stream\r\n").length = 31 := by decide +kernel
  have h₁ := h.method.1
  have h₂ := h.url.1
  have h₃ := h.extra.1
  have h₄ := decimal_length h.cseq
  have h₅ := h.auth
  simp only [RtspRequest.text, RtspRequest.front, List.length_append, hfixed, crlf,
    List.length_cons, List.length_nil]
  omega

/-- The request that `rtsp_send` is asked for. -/
def requestFor (u : RtspUrl) (url : List UInt8) (k : ℤ) (method extra : List UInt8) : RtspRequest :=
  ⟨method, url, k, credentials u method url, extra⟩

theorem requestFor_sized (hu : u.InArrays) (hurl : InArray 512 url) (hmethod : InArray 17 method)
    (hextra : InArray 192 extra) (hk : -2147483648 ≤ k ∧ k ≤ 2147483647) :
    (requestFor u url k method extra).Sized :=
  ⟨hmethod, hurl, hextra, hk, credentials_length hu hurl⟩

/-- Every request is put together, and written whole unless a write fails. -/
theorem rtspSend_eq (peer : Peer UInt8 σ) (x : Exchange UInt8 σ) (hu : u.InArrays)
    (hurl : InArray 512 url) (hmethod : InArray 17 method) (hextra : InArray 192 extra)
    (hk : -2147483648 ≤ k ∧ k ≤ 2147483647) :
    rtspSend peer stack x url u k method extra =
      (some (requestFor u url k method extra),
        (x.writeAll peer (requestFor u url k method extra).text).1, k + 1,
        (x.writeAll peer (requestFor u url k method extra).text).2) := by
  have hlen := RtspRequest.text_length (requestFor_sized hu hurl hmethod hextra hk)
  unfold rtspSend
  rw [rtspAuth_eq hu hurl hmethod]
  exact if_neg (not_cut hlen.1 hlen.2)

end Requests

/-! ## Lines -/

/-- There is no empty line in the text. -/
def NoEmptyLine (s : List UInt8) : Prop := ¬ crlf2 <:+: s

instance (s : List UInt8) : Decidable (NoEmptyLine s) := inferInstanceAs (Decidable (¬ _))

theorem noEmptyLine_closed : InfixClosed NoEmptyLine := fun _ _ hsub h hempty =>
  h (hempty.trans hsub)

/-- The line with the credentials, if there is one. -/
def credentialsLine (u : RtspUrl) (method url : List UInt8) : List (List UInt8) :=
  if u.Challenged then
    [ascii "Authorization: Digest username=\"" ++ u.user ++ ascii "\", realm=\"" ++ u.realm ++
      ascii "\", nonce=\"" ++ u.nonce ++ ascii "\", uri=\"" ++ url ++ ascii "\", response=\"" ++
      digestResponse u.user u.realm u.pass u.nonce method url ++ [34]]
  else if u.auth ≠ [] then
    [ascii "Authorization: Basic " ++ u.auth]
  else
    []

/-- The lines of a request with one header line of its own. -/
def requestLines (u : RtspUrl) (url : List UInt8) (k : ℤ) (method line : List UInt8) :
    List (List UInt8) :=
  [method ++ [32] ++ url ++ ascii " RTSP/1.0", ascii "CSeq: " ++ decimal k,
    ascii "User-Agent: toon-vpu-stream"] ++ credentialsLine u method url ++ [line]

section Lines

variable {u : RtspUrl} {url method line s t sep : List UInt8} {k : ℤ}

theorem credentials_text (u : RtspUrl) (method url : List UInt8) :
    credentials u method url = linesText crlf (credentialsLine u method url) := by
  have hend : ascii "\"\r\n" = [34] ++ crlf := by decide +kernel
  unfold credentials credentialsLine
  split
  · simp only [digestLine, hend, linesText, List.flatMap_cons, List.flatMap_nil, List.append_nil,
      List.append_assoc]
  · split
    · simp only [linesText, List.flatMap_cons, List.flatMap_nil, List.append_nil]
    · rfl

theorem requestFor_text (u : RtspUrl) (url : List UInt8) (k : ℤ) (method line : List UInt8) :
    (requestFor u url k method (line ++ crlf)).text =
      linesText crlf (requestLines u url k method line) ++ crlf := by
  have hfirst : ascii " RTSP/1.0\r\nCSeq: " = ascii " RTSP/1.0" ++ crlf ++ ascii "CSeq: " := by
    decide +kernel
  have hagent : ascii "\r\nUser-Agent: toon-vpu-stream\r\n" =
      crlf ++ ascii "User-Agent: toon-vpu-stream" ++ crlf := by decide +kernel
  simp only [RtspRequest.text, RtspRequest.front, requestFor, requestLines, credentials_text,
    linesText_append, linesText_cons, hfirst, hagent, List.append_assoc]
  rfl

/-- Digits and a minus sign. -/
theorem decimal_mem (k : ℤ) : ∀ c ∈ decimal k, 45 ≤ c.toNat := by
  have hdigits : ∀ c ∈ (Nat.toDigits 10 k.natAbs).map Char.toUInt8, 45 ≤ c.toNat := by
    intro c hc
    rcases List.mem_map.mp hc with ⟨d, hd, rfl⟩
    have hdigit := Nat.isDigit_of_mem_toDigits (by decide) (by decide) hd
    simp only [Char.isDigit, Bool.and_eq_true, decide_eq_true_eq, UInt32.le_iff_toNat_le] at hdigit
    have hlow : '0'.val.toNat = 48 := rfl
    have hhigh : '9'.val.toNat = 57 := rfl
    have hbyte : d.toUInt8.toNat = d.val.toNat % 256 := rfl
    omega
  unfold decimal
  intro c hc
  split at hc
  · rcases List.mem_cons.mp hc with rfl | hc
    · decide
    · exact hdigits c hc
  · exact hdigits c hc

theorem decimal_zero (k : ℤ) : 0 ∉ decimal k := fun h0 => absurd (decimal_mem k 0 h0) (by decide)

theorem isLine_fixed {s : List UInt8} (h : s ≠ [] ∧ ∀ c ∈ s, c ∉ crlf) : IsLine crlf s :=
  isLine_of_forall h.1 h.2 (by decide)

theorem isLine_decimal (k : ℤ) : IsLine crlf (decimal k) := by
  refine isLine_fixed ⟨?_, fun c hc hmem => ?_⟩
  · unfold decimal
    split <;> simp [Nat.toDigits_ne_nil]
  · have hlarge := decimal_mem k c hc
    simp only [crlf, List.mem_cons, List.not_mem_nil, or_false] at hmem
    rcases hmem with rfl | rfl <;> exact absurd hlarge (by decide)

theorem not_empty_line_of_alnum (h : ∀ c ∈ s, isAlnum c = true) : NoEmptyLine s := fun hempty =>
  absurd (h 13 (hempty.subset (by decide))) (by decide)

/-- What holds of each line that a request can have. -/
theorem requestLines_forall {p : List UInt8 → Prop}
    (hfirst : p (method ++ [32] ++ url ++ ascii " RTSP/1.0")) (hcseq : p (ascii "CSeq: " ++ decimal k))
    (hagent : p (ascii "User-Agent: toon-vpu-stream"))
    (hdigest : p (ascii "Authorization: Digest username=\"" ++ u.user ++ ascii "\", realm=\"" ++
      u.realm ++ ascii "\", nonce=\"" ++ u.nonce ++ ascii "\", uri=\"" ++ url ++
      ascii "\", response=\"" ++ digestResponse u.user u.realm u.pass u.nonce method url ++ [34]))
    (hbasic : p (ascii "Authorization: Basic " ++ u.auth)) (hline : p line) :
    ∀ l ∈ requestLines u url k method line, p l := by
  intro l hl
  simp only [requestLines, List.cons_append, List.nil_append, List.mem_cons, List.mem_append,
    List.not_mem_nil, or_false] at hl
  rcases hl with rfl | rfl | rfl | hl | rfl
  · exact hfirst
  · exact hcseq
  · exact hagent
  · unfold credentialsLine at hl
    split at hl
    · obtain rfl := List.mem_singleton.mp hl
      exact hdigest
    · split at hl
      · obtain rfl := List.mem_singleton.mp hl
        exact hbasic
      · cases hl
  · exact hline

/-- No line of a request has an empty line in it when what it is made of has none. -/
theorem requestLines_isLine (hu : u.Sound NoEmptyLine) (hurl : NoEmptyLine url)
    (hmethod : IsLine crlf (method ++ [32])) (hline : IsLine crlf line) :
    ∀ l ∈ requestLines u url k method line, IsLine crlf l := by
  have hversion : IsLine crlf (ascii " RTSP/1.0") := isLine_fixed (by decide +kernel)
  have hcseq : IsLine crlf (ascii "CSeq: ") := isLine_fixed (by decide +kernel)
  have hagent : IsLine crlf (ascii "User-Agent: toon-vpu-stream") :=
    isLine_fixed (by decide +kernel)
  have hempty : ¬ crlf ++ crlf <:+: ([] : List UInt8) := by decide +kernel
  have hdigest : NoEmptyLine (digestResponse u.user u.realm u.pass u.nonce method url) :=
    not_empty_line_of_alnum (md5Digits_digit _)
  have h₁ : IsLine crlf (ascii "Authorization: Digest username=\"") :=
    isLine_fixed (by decide +kernel)
  have h₂ : IsLine crlf (ascii "\", realm=\"") := isLine_fixed (by decide +kernel)
  have h₃ : IsLine crlf (ascii "\", nonce=\"") := isLine_fixed (by decide +kernel)
  have h₄ : IsLine crlf (ascii "\", uri=\"") := isLine_fixed (by decide +kernel)
  have h₅ : IsLine crlf (ascii "\", response=\"") := isLine_fixed (by decide +kernel)
  have h₆ : IsLine crlf [34] := isLine_fixed (by decide +kernel)
  apply requestLines_forall
  case hfirst => exact hmethod.around hversion hurl
  case hcseq =>
    have h := hcseq.around (isLine_decimal k) hempty
    rwa [List.append_nil] at h
  case hagent => exact hagent
  case hdigest =>
    exact ((((h₁.around h₂ hu.user_p).around h₃ hu.realm_p).around h₄ hu.nonce_p).around h₅
      hurl).around h₆ hdigest
  case hbasic =>
    -- the encoded user and password have no line end at all
    have hbasic : ∀ c ∈ ascii "Authorization: Basic ", c ∉ crlf := by decide +kernel
    refine isLine_fixed ⟨?_, fun c hc => ?_⟩
    · exact List.append_ne_nil_of_left_ne_nil (by decide +kernel) _
    · exact (List.mem_append.mp hc).elim (hbasic c) (hu.auth_plain c)
  case hline => exact hline

/-- A request ends with the first empty line. -/
theorem requestFor_isBlock (hu : u.Sound NoEmptyLine) (hurl : NoEmptyLine url)
    (hmethod : IsLine crlf (method ++ [32])) (hline : IsLine crlf line) :
    IsBlock crlf2 (requestFor u url k method (line ++ crlf)).text := by
  have hlines := requestLines_isLine (k := k) hu hurl hmethod hline
  rw [requestFor_text]
  exact isBlock_lines (by decide) (fun l hl => hlines l (List.mem_append_left _ hl)) hline

end Lines

end Stream
end ToonVpu
