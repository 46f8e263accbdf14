import ToonVpu.Foundation.Monitor
import ToonVpu.Stream.RtspReceive
import ToonVpu.Stream.RtspSend
import ToonVpu.Stream.Sdp
import ToonVpu.Stream.Sprop

/-!
# RtspClient — the dialog with the camera (`rtsp_thread_main` of `apps/vpu_stream.c`)

The thread asks the camera for a description of its streams, sets one of them up and has it played:
DESCRIBE, once more with credentials when the camera wants some, SETUP and PLAY.  From then on the
connection carries the packets.

* `rtspAbsUrl`, `rtspParseSession`, `rtspThreadMain`: the code;
* `rtsp_dialog_in_order`: each request has its place, whatever the camera does;
* `rtsp_requests_framed`: the camera hears the requests, and nothing that is no request.
-/

namespace ToonVpu
namespace Stream

open Foundation
open Foundation.Text
open Foundation.Blocks
open Foundation.Monitor

/-! ## The program -/

/-- The string that an array holds. -/
def cstr (s : List UInt8) : List UInt8 := s.takeWhile (· ≠ 0)

/-- `rtsp_abs_url` for an array of `dstLen` bytes. -/
def rtspAbsUrl (dstLen : ℕ) (base control : List UInt8) : List UInt8 :=
  if control = [] ∨ control = [42] then
    snprintfText dstLen base
  else if (ascii "rtsp://").isPrefixOf control then
    snprintfText dstLen control
  else if dstLen < base.length + 1 + control.length + 1 then
    []
  else
    base ++ [47] ++ control

/-- `rtsp_parse_session`. -/
def rtspParseSession (hdr : List UInt8) (sessionLen : ℕ) : List UInt8 :=
  match strstr hdr (ascii "Session:") with
  | none => []
  | some p =>
    let p := (p.drop 8).dropWhile isBlank
    snprintfText sessionLen (p.takeWhile fun c => c ≠ 59 ∧ c ≠ 13 ∧ c ≠ 10)

/-- What the thread does, one after the other. -/
inductive RtspEvent
  | connected
  | asked (request : RtspRequest) (sent : Bool)
  | answered (response : RtspResponse)
  /-- The parameter sets go to `out_fd`. -/
  | put (spspps : List UInt8)
  /-- A packet goes to `handle_rtp_h264`. -/
  | packet (pkt : List UInt8)
  | closedFd
  | closedOut
  deriving DecidableEq, Repr

/-- What the C library answers to `tcp_connect_host`.  A connection has the state of the other side
and what can be read from it. -/
structure Network (σ : Type) where
  socket : Bool
  inetAton : List UInt8 → Option ℕ
  connect : ℕ → ℕ → Option (σ × Source UInt8)

/-- The thread on its connection. -/
structure RtspThread (σ : Type) where
  conn : Exchange UInt8 σ
  url : RtspUrl
  cseq : ℤ
  log : List RtspEvent

section Client

variable {σ : Type} (peer : Peer UInt8 σ) (stack : Md5Ctx)

/-- `tcp_connect_host`; the events are those of the descriptor. -/
def tcpConnectHost (net : Network σ) (host : List UInt8) (port : ℤ) :
    Option (Exchange UInt8 σ) × List RtspEvent :=
  if net.socket = false then
    (none, [])
  else
    match net.inetAton host with
    | none => (none, [.connected, .closedFd])
    | some addr =>
      match net.connect addr (port % 65536).toNat with
      | none => (none, [.connected, .closedFd])
      | some (state, inbox) => (some ⟨state, inbox, []⟩, [.connected])

/-- `rtsp_send`, and `rtsp_read_response` when it succeeds. -/
def rtspAsk (t : RtspThread σ) (url method extra : List UInt8) :
    Option RtspResponse × RtspThread σ :=
  let (request, sent, cseq, conn) := rtspSend peer stack t.conn url t.url t.cseq method extra
  let log := t.log ++ (request.map (RtspEvent.asked · sent)).toList
  if sent then
    let (response, inbox) := rtspReadResponse conn.inbox 2048 4096
    (some response,
      { t with
        conn := { conn with inbox := inbox }, cseq := cseq, log := log ++ [.answered response] })
  else
    (none, { t with conn := conn, cseq := cseq, log := log })

/-- The response when the request is sent and accepted; the thread gives up otherwise. -/
def rtspAccepted (t : RtspThread σ) (url method extra : List UInt8) :
    Option RtspResponse × RtspThread σ :=
  match rtspAsk peer stack t url method extra with
  | (some response, t) => (if response.ok then some response else none, t)
  | (none, t) => (none, t)

def describeExtra : List UInt8 := ascii "Accept: application/sdp\r\n"

def setupExtra : List UInt8 := ascii "Transport: RTP/AVP/TCP;unicast;interleaved=0-1\r\n"

/-- `play_extra`. -/
def playExtra (session : List UInt8) : List UInt8 :=
  snprintfText 192 (ascii "Session: " ++ session ++ crlf)

/-- DESCRIBE, with an answer to a challenge the second time. -/
def rtspDescribe (t : RtspThread σ) (base : List UInt8) : Option RtspResponse × RtspThread σ :=
  match rtspAsk peer stack t base (ascii "DESCRIBE") describeExtra with
  | (none, t) => (none, t)
  | (some response, t) =>
    if response.ok then
      (some response, t)
    else
      let (url, rc) := rtspParseDigestChallenge (some (cstr response.hdr)) t.url
      let t := { t with url := url }
      if rc = 0 then
        rtspAccepted peer stack t base (ascii "DESCRIBE") describeExtra
      else
        (none, t)

/-- SETUP and PLAY, with what the description says. -/
def rtspSetup (t : RtspThread σ) (base body : List UInt8) : Option RtspResponse × RtspThread σ :=
  let setupUrl := rtspAbsUrl 512 base (sdpControl body 256)
  if setupUrl = [] then
    (none, t)
  else
    match rtspAccepted peer stack t setupUrl (ascii "SETUP") setupExtra with
    | (none, t) => (none, t)
    | (some response, t) =>
      let session := rtspParseSession (cstr response.hdr) 128
      if session = [] then
        (none, t)
      else
        rtspAccepted peer stack t base (ascii "PLAY") (playExtra session)

/-- Up to the answer to PLAY; the parameter sets when it is accepted. -/
def rtspDialog (t : RtspThread σ) (base : List UInt8) : Option (List UInt8) × RtspThread σ :=
  match rtspDescribe peer stack t base with
  | (none, t) => (none, t)
  | (some response, t) =>
    match rtspSetup peer stack t base (cstr response.body) with
    | (none, t) => (none, t)
    | (some _, t) => (some (sdpSpspps (cstr response.body)), t)

/-- `base`. -/
def rtspBase (u : RtspUrl) : List UInt8 :=
  snprintfText 512 (ascii "rtsp://" ++ u.host ++ [58] ++ decimal u.port ++ u.path)

/-- What a run of the thread leaves: its events, what the camera heard, and the other side of
`out_fd`. -/
structure RtspRunEnd (τ : Type) where
  log : List RtspEvent
  said : List UInt8
  out : τ

variable {τ : Type} (net : Network σ) (put : τ → List UInt8 → τ × Bool)
  (handle : List UInt8 → τ → List UInt8 → τ × Bool)

/-- The parameter sets and the packets. -/
def rtspStream (spspps : List UInt8) (inbox : Source UInt8) (out : τ) : List RtspEvent × τ :=
  let (out, written) := if 0 < spspps.length then put out spspps else (out, true)
  let first := if 0 < spspps.length then [RtspEvent.put spspps] else []
  if written then
    let run := rtspReceive (handle spspps) inbox out
    (first ++ run.delivered.map .packet, run.state)
  else
    (first, out)

/-- The thread from its connection on. -/
def rtspConnected (u : RtspUrl) (conn : Exchange UInt8 σ) (log : List RtspEvent) (out : τ) :
    RtspRunEnd τ :=
  match rtspDialog peer stack ⟨conn, u, 1, log⟩ (rtspBase u) with
  | (none, t) => ⟨t.log ++ [.closedFd, .closedOut], t.conn.said, out⟩
  | (some spspps, t) =>
    let (events, out) := rtspStream put handle spspps t.conn.inbox out
    ⟨t.log ++ events ++ [.closedFd, .closedOut], t.conn.said, out⟩

/-- `rtsp_thread_main`; `url` is the array `src->url`. -/
def rtspThreadMain (url : List UInt8) (out : τ) : RtspRunEnd τ :=
  match parseRtspUrl (cstr url) with
  | none => ⟨[.closedOut], [], out⟩
  | some u =>
    match tcpConnectHost net u.host u.port with
    | (none, log) => ⟨log ++ [.closedOut], [], out⟩
    | (some conn, log) => rtspConnected peer stack put handle u conn log out

end Client

/-! ## What a response can say -/

/-- The first empty line is the end. -/
def EndsFirst (hdr : List UInt8) : Prop := ∀ pre, pre <+: hdr → crlf2 <:+ pre → pre = hdr

section Responses

variable {hdr s name v q : List UInt8} {u : RtspUrl} {p : List UInt8 → Prop}

theorem endsFirst_of_noEmptyLine (h : NoEmptyLine hdr) : EndsFirst hdr := fun _ hpre hends =>
  absurd (hends.isInfix.trans hpre.isInfix) h

/-- One more byte. -/
theorem endsFirst_concat {c : UInt8} (h : NoEmptyLine hdr) : EndsFirst (hdr ++ [c]) := by
  intro pre hpre hends
  rcases List.prefix_concat_iff.mp hpre with rfl | hpre
  · rfl
  · exact absurd (hends.isInfix.trans hpre.isInfix) h

theorem noEmptyLine_concat {c : UInt8} (h : NoEmptyLine hdr) (hnot : ¬ crlf2 <:+ hdr ++ [c]) :
    NoEmptyLine (hdr ++ [c]) := by
  rintro ⟨a, b, hab⟩
  rcases List.eq_nil_or_concat b with rfl | ⟨b, x, rfl⟩
  · exact hnot ⟨a, by simpa using hab⟩
  · have hsplit : (a ++ crlf2 ++ b) ++ [x] = hdr ++ [c] := by
      rw [← hab]
      simp
    have hfront := (List.append_inj' hsplit rfl).1
    exact h ⟨a, b, hfront⟩

/-- However the bytes come in, the loop stops at the first empty line. -/
theorem headerLoop_endsFirst (hdrMax fuel : ℕ) (s : Source UInt8) (h : NoEmptyLine hdr) :
    EndsFirst (headerLoop hdrMax fuel s hdr).2.1 := by
  induction fuel generalizing s hdr with
  | zero => exact endsFirst_of_noEmptyLine h
  | succ fuel ih =>
    rw [headerLoop]
    split
    · rcases s.read 1 with ⟨got, s₁⟩
      cases got with
      | nil => exact endsFirst_of_noEmptyLine h
      | cons ch _ =>
        simp only
        split
        · rcases rtspDiscardInterleaved s₁ with ⟨ok, s₂⟩
          cases ok with
          | false => exact endsFirst_of_noEmptyLine h
          | true => exact ih s₂ h
        · split
          · exact ih s₁ h
          · simp only [ends_iff]
            by_cases hends : crlf2 <:+ hdr ++ [ch]
            · rw [if_pos hends]
              exact endsFirst_concat h
            · rw [if_neg hends]
              exact ih s₁ (noEmptyLine_concat h hends)
    · exact endsFirst_of_noEmptyLine h

theorem rtspReadResponse_endsFirst (s : Source UInt8) (hdrMax bodyMax : ℕ) :
    EndsFirst (rtspReadResponse s hdrMax bodyMax).1.hdr := by
  have hnil : NoEmptyLine [] := by decide +kernel
  have h := headerLoop_endsFirst hdrMax (s.rest.length + 1) s hnil
  unfold rtspReadResponse
  generalize headerLoop hdrMax (s.rest.length + 1) s [] = res at h ⊢
  rcases res with ⟨ok, hdr, s₁⟩
  cases ok with
  | false => exact h
  | true =>
    simp only
    split
    · exact h
    · split <;> exact h

theorem EndsFirst.cstr (h : EndsFirst hdr) : EndsFirst (cstr hdr) := by
  intro pre hpre hends
  have htext : Stream.cstr hdr <+: hdr := List.takeWhile_prefix _
  have hall := h pre (hpre.trans htext) hends
  rw [hall] at hpre ⊢
  exact hpre.eq_of_length_le htext.length_le

/-- A value is closed by a quote, or is on one line. -/
theorem valueText_cases (h : valueText q = some v) :
    v ++ [34] <:+: q ∨ 13 ∉ v ∧ v <:+: q := by
  have hdrop : q.dropWhile isBlank <:+ q := List.dropWhile_suffix _
  unfold valueText at h
  simp only at h
  split at h
  · cases hclose : strchr ((q.dropWhile isBlank).drop 1) 34 with
    | none =>
      rw [hclose] at h
      cases h
    | some e =>
      rw [hclose] at h
      obtain ⟨pre, rest, rfl, hq, -⟩ := strchr_eq_some_iff.mp hclose
      rw [hq, Option.map_some, upTo_append, Option.some.injEq] at h
      subst h
      have hsuffix : pre ++ 34 :: rest <:+ q := hq ▸ (List.drop_suffix _ _).trans hdrop
      refine .inl ((List.IsPrefix.isInfix ⟨rest, ?_⟩).trans hsuffix.isInfix)
      simp
  · simp only [Option.some.injEq] at h
    subst h
    refine .inr ⟨fun hmem => ?_, ((List.takeWhile_prefix _).isInfix).trans hdrop.isInfix⟩
    have hends := List.mem_takeWhile_imp hmem
    exact absurd hends (by decide)

/-- What `rtsp_digest_param` leaves in its array. -/
theorem rtspDigestParam_value (hname : Searchable name) (s : List UInt8) :
    (rtspDigestParam s name 128).1 = [] ∨ ∃ v, (rtspDigestParam s name 128).1 = v.take 127 ∧
      (v ++ [34] <:+: s ∨ 13 ∉ v ∧ v <:+: s) := by
  rw [rtspDigestParam_eq hname]
  unfold digestValue
  cases hfirst : firstStanding s name with
  | none => exact .inl rfl
  | some v =>
    refine .inr ⟨v, rfl, ?_⟩
    unfold firstStanding at hfirst
    obtain ⟨t, ht, hvalue⟩ := Option.bind_eq_some_iff.mp hfirst
    have hsuffix : ((t.drop name.length).dropWhile isBlank).drop 1 <:+ s :=
      (List.drop_suffix _ _).trans ((List.dropWhile_suffix _).trans
        ((List.drop_suffix _ _).trans (firstSuffix_suffix ht)))
    exact (valueText_cases hvalue).imp (fun h => h.trans hsuffix.isInfix)
      fun h => ⟨h.1, h.2.trans hsuffix.isInfix⟩

/-- So it has no empty line, when the text it is taken from has one at its end at most. -/
theorem rtspDigestParam_noEmptyLine (hname : Searchable name) (h : EndsFirst hdr) (hs : s <:+ hdr) :
    NoEmptyLine (rtspDigestParam s name 128).1 := by
  have hnil : NoEmptyLine [] := by decide +kernel
  rcases rtspDigestParam_value hname s with hempty | ⟨v, hv, hplace⟩
  · rwa [hempty]
  · rw [hv]
    refine noEmptyLine_closed _ _ (List.take_prefix _ _).isInfix ?_
    rcases hplace with hquoted | ⟨hone, -⟩
    · rintro ⟨a, b, rfl⟩
      rcases hquoted.trans hs.isInfix with ⟨front, back, hall⟩
      have hearly := h (front ++ (a ++ crlf2)) ⟨b ++ [34] ++ back, by rw [← hall]; simp⟩
        ⟨front ++ a, by simp⟩
      have hlen := congrArg List.length (hearly.trans hall.symm)
      simp only [List.length_append, List.length_singleton] at hlen
      omega
    · exact fun hempty => hone (hempty.subset (by decide))

theorem rtspDigestParam_inArray (hname : Searchable name) (h0 : 0 ∉ s) :
    InArray 128 (rtspDigestParam s name 128).1 := by
  rcases rtspDigestParam_value hname s with hempty | ⟨v, hv, hplace⟩
  · rw [hempty]
    exact .nil (by decide)
  · have hsub : v.Sublist s := by
      rcases hplace with hquoted | ⟨-, hplain⟩
      · exact (List.sublist_append_left _ _).trans hquoted.sublist
      · exact hplain.sublist
    rw [hv]
    refine .sublist h0 ((List.take_sublist _ _).trans hsub) ?_
    have hlen := List.length_take_le 127 v
    omega

/-- What a challenge leaves in the record. -/
theorem rtspParseDigestChallenge_sound (hu : u.Sound p)
    (hp : ∀ s name, Searchable name → s <:+ cstr hdr → p (rtspDigestParam s name 128).1) :
    (rtspParseDigestChallenge (some (cstr hdr)) u).1.Sound p := by
  have h0 : 0 ∉ cstr hdr := fun hmem => by simpa using List.mem_takeWhile_imp hmem
  unfold rtspParseDigestChallenge
  simp only [Option.bind_some]
  cases hauth : strcasestr (cstr hdr) authenticateKey with
  | none => exact hu
  | some auth =>
    have hsuffix : auth <:+ cstr hdr := firstSuffix_suffix hauth
    have h0' : 0 ∉ auth := fun hmem => h0 (hsuffix.subset hmem)
    have hrealm : (RtspUrl.Sound p { u with realm := (rtspDigestParam auth (ascii "realm") 128).1 }) :=
      { hu with
        realm := rtspDigestParam_inArray searchable_realm h0'
        realm_p := hp auth _ searchable_realm hsuffix }
    have hnonce : (RtspUrl.Sound p { u with
        realm := (rtspDigestParam auth (ascii "realm") 128).1
        nonce := (rtspDigestParam auth (ascii "nonce") 128).1 }) :=
      { hrealm with
        nonce := rtspDigestParam_inArray searchable_nonce h0'
        nonce_p := hp auth _ searchable_nonce hsuffix }
    simp only
    split
    · exact hu
    · split
      · exact hrealm
      · split <;> exact hnonce

theorem cstr_zero (s : List UInt8) : 0 ∉ cstr s := fun hmem => by
  simpa using List.mem_takeWhile_imp hmem

/-- The control string is on one line of the description. -/
theorem sdpControl_mem (sdp : List UInt8) (n : ℕ) :
    ∀ c ∈ sdpControl sdp n, c ∈ sdp ∧ c ∉ crlf := by
  have hloop (stop : List UInt8) (fuel : ℕ) : ∀ p, controlLoop stop fuel p <:+ p := by
    induction fuel with
    | zero => exact fun p => List.suffix_rfl
    | succ fuel ih =>
      intro p
      rw [controlLoop]
      cases hnext : strstr (p.drop 1) controlKey with
      | none => exact List.suffix_rfl
      | some next =>
        simp only
        split
        · exact (ih next).trans ((firstSuffix_suffix hnext).trans (List.drop_suffix _ _))
        · exact List.suffix_rfl
  have hat : ∀ p, sdpControlAt sdp = some p → p <:+ sdp := by
    intro p hp
    have hstart (start stop : List UInt8) (hs : start <:+ sdp)
        (h : (match strstr start controlKey with
          | none => none
          | some p => if stop.length < p.length then some (controlLoop stop p.length p)
            else some p) = some p) : p <:+ sdp := by
      cases hfirst : strstr start controlKey with
      | none =>
        rw [hfirst] at h
        cases h
      | some q =>
        have hq : q <:+ sdp := (firstSuffix_suffix hfirst).trans hs
        rw [hfirst] at h
        simp only at h
        split at h
        · exact Option.some.inj h ▸ (hloop stop q.length q).trans hq
        · exact Option.some.inj h ▸ hq
    unfold sdpControlAt at hp
    cases hvideo : strstr sdp (ascii "m=video") with
    | none =>
      simp only [hvideo] at hp
      exact hstart _ _ List.suffix_rfl hp
    | some v =>
      simp only [hvideo] at hp
      exact hstart _ _ (firstSuffix_suffix hvideo) hp
  unfold sdpControl
  cases hp : sdpControlAt sdp with
  | none => exact fun c hc => absurd hc List.not_mem_nil
  | some p =>
    intro c hc
    have hvalue : c ∈ controlValue p := List.mem_of_mem_take hc
    have hline := List.mem_takeWhile_imp hvalue
    have hplace : c ∈ p.drop 10 := (List.takeWhile_sublist _).subset hvalue
    refine ⟨(hat p hp).subset (List.mem_of_mem_drop hplace), ?_⟩
    simpa [crlf] using hline

theorem rtspParseSession_mem (s : List UInt8) (n : ℕ) :
    ∀ c ∈ rtspParseSession s n, c ∈ s ∧ c ∉ crlf := by
  unfold rtspParseSession
  cases hp : strstr s (ascii "Session:") with
  | none => exact fun c hc => absurd hc List.not_mem_nil
  | some p =>
    intro c hc
    have hvalue := List.mem_of_mem_take hc
    have hline := List.mem_takeWhile_imp hvalue
    have hplace := (List.dropWhile_suffix _).subset ((List.takeWhile_sublist _).subset hvalue)
    refine ⟨(firstSuffix_suffix hp).subset (List.mem_of_mem_drop hplace), ?_⟩
    simp only [crlf, List.mem_cons, List.not_mem_nil, or_false, not_or]
    have hthree : c ≠ 59 ∧ c ≠ 13 ∧ c ≠ 10 := by simpa using hline
    exact hthree.2

theorem rtspParseSession_length (s : List UInt8) (n : ℕ) :
    (rtspParseSession s n).length ≤ n - 1 := by
  unfold rtspParseSession
  split
  · exact Nat.zero_le _
  · exact List.length_take_le _ _

/-- The URL for SETUP. -/
theorem rtspAbsUrl_inArray {base control : List UInt8} (hbase : InArray 512 base)
    (hcontrol : 0 ∉ control) : InArray 512 (rtspAbsUrl 512 base control) := by
  unfold rtspAbsUrl
  split
  · exact inArray_snprintf (by decide) hbase.2
  · split
    · exact inArray_snprintf (by decide) hcontrol
    · split
      · exact .nil (by decide)
      · refine ⟨?_, ?_⟩
        · simp only [List.length_append, List.length_singleton]
          omega
        · simp only [List.mem_append, List.mem_singleton, not_or]
          exact ⟨⟨hbase.2, by decide⟩, hcontrol⟩

theorem rtspAbsUrl_noEmptyLine {base control : List UInt8} {n : ℕ} (hbase : NoEmptyLine base)
    (hcontrol : 13 ∉ control) : NoEmptyLine (rtspAbsUrl n base control) := by
  have hplain : NoEmptyLine control := fun h => hcontrol (h.subset (by decide))
  unfold rtspAbsUrl
  split
  · exact noEmptyLine_closed _ _ (List.take_prefix _ _).isInfix hbase
  · split
    · exact noEmptyLine_closed _ _ (List.take_prefix _ _).isInfix hplain
    · split
      · decide +kernel
      · intro h
        have hslash : ∀ x ∈ (base ++ [47]).getLast?, x ∉ crlf2 := by
          rw [List.getLast?_concat]
          rintro x ⟨⟩
          decide
        rcases (infix_append_of_last hslash).mp h with h | h
        · have hhead : ∀ x ∈ ([47] : List UInt8).head?, x ∉ crlf2 := by
            rintro x ⟨⟩
            decide
          rcases (infix_append_of_head hhead).mp h with h | h
          · exact hbase h
          · exact absurd h (by decide)
        · exact hplain h

theorem rtspBase_text (hu : u.InArrays) : InArray 512 (rtspBase u) ∧
    rtspBase u = ascii "rtsp://" ++ u.host ++ [58] ++ decimal u.port ++ u.path := by
  have hscheme : (ascii "rtsp://").length = 7 ∧ 0 ∉ ascii "rtsp://" := by decide +kernel
  have h₁ := hu.host.1
  have h₂ := decimal_length hu.port
  have h₃ := hu.path.1
  have hlen : (ascii "rtsp://" ++ u.host ++ [58] ++ decimal u.port ++ u.path).length < 512 := by
    simp only [List.length_append, List.length_singleton, hscheme.1]
    omega
  have htext : rtspBase u = ascii "rtsp://" ++ u.host ++ [58] ++ decimal u.port ++ u.path :=
    List.take_of_length_le (by omega)
  refine ⟨htext ▸ ⟨hlen, ?_⟩, htext⟩
  simp only [List.mem_append, List.mem_singleton, not_or]
  exact ⟨⟨⟨⟨hscheme.2, hu.host.2⟩, by decide⟩, decimal_zero _⟩, hu.path.2⟩

end Responses

/-! ## The dialog -/

/-- What was said so far: the record with the last challenge, which descriptors are open, how many
requests there were, the last one, whether it was sent, and the answer to it. -/
structure Dialog where
  url : RtspUrl
  fdOpen : Bool
  outOpen : Bool
  asked : ℕ
  request : Option RtspRequest
  sent : Bool
  answer : Option RtspResponse

namespace Dialog

def start (u : RtspUrl) : Dialog := ⟨u, false, true, 0, none, false, none⟩

/-- A refusal may carry a challenge. -/
def next (d : Dialog) : RtspEvent → Dialog
  | .connected => { d with fdOpen := true }
  | .asked request sent =>
    { d with asked := d.asked + 1, request := some request, sent := sent, answer := none }
  | .answered a =>
    { d with
      answer := some a
      url := if a.ok then d.url else (rtspParseDigestChallenge (some (cstr a.hdr)) d.url).1 }
  | .closedFd => { d with fdOpen := false }
  | .closedOut => { d with outOpen := false }
  | _ => d

/-- Whether a request has its place here: DESCRIBE comes first, and once more when it was refused
with a challenge; SETUP asks for what an accepted DESCRIBE describes; PLAY names the session of an
accepted SETUP. -/
def Follows (d : Dialog) (r : RtspRequest) : Prop :=
  match d.request, d.answer with
  | none, _ => r.method = ascii "DESCRIBE" ∧ r.url = rtspBase d.url ∧ r.extra = describeExtra
  | some q, some a =>
    (q.method = ascii "DESCRIBE" ∧ a.ok = false ∧ d.asked = 1 ∧
        (rtspParseDigestChallenge (some (cstr a.hdr)) d.url).2 = 0 ∧
        r.method = ascii "DESCRIBE" ∧ r.url = rtspBase d.url ∧ r.extra = describeExtra) ∨
      (q.method = ascii "DESCRIBE" ∧ a.ok = true ∧ r.method = ascii "SETUP" ∧
        r.url = rtspAbsUrl 512 (rtspBase d.url) (sdpControl (cstr a.body) 256) ∧ r.url ≠ [] ∧
        r.extra = setupExtra) ∨
      (q.method = ascii "SETUP" ∧ a.ok = true ∧ r.method = ascii "PLAY" ∧
        r.url = rtspBase d.url ∧ rtspParseSession (cstr a.hdr) 128 ≠ [] ∧
        r.extra = ascii "Session: " ++ rtspParseSession (cstr a.hdr) 128 ++ crlf)
  | some _, none => False

/-- The last request, with that method, was accepted. -/
def Accepted (d : Dialog) (method : List UInt8) (a : RtspResponse) : Prop :=
  a.ok = true ∧ d.answer = some a ∧ ∃ q, d.request = some q ∧ q.method = method

/-- PLAY was accepted. -/
def Playing (d : Dialog) : Prop := ∃ a, d.Accepted (ascii "PLAY") a

def Allows (d : Dialog) : RtspEvent → Prop
  | .connected => d.fdOpen = false ∧ d.request = none
  | .asked r _ =>
    d.fdOpen = true ∧ d.Follows r ∧ r = requestFor d.url r.url (d.asked + 1) r.method r.extra
  | .answered _ => d.fdOpen = true ∧ d.sent = true ∧ d.answer = none
  | .put _ | .packet _ => d.fdOpen = true ∧ d.outOpen = true ∧ d.Playing
  | .closedFd => d.fdOpen = true
  | .closedOut => d.fdOpen = false ∧ d.outOpen = true

end Dialog

/-- The requests that were sent. -/
def sentRequests (log : List RtspEvent) : List RtspRequest :=
  log.filterMap fun
    | .asked r true => some r
    | _ => none

section Dialogs

variable {σ τ : Type} {peer : Peer UInt8 σ} {stack : Md5Ctx} {u : RtspUrl} {t t' : RtspThread σ}
  {url method extra base : List UInt8}

/-- Where the dialog of the thread is. -/
def RtspThread.dialog (u : RtspUrl) (t : RtspThread σ) : Dialog :=
  t.log.foldl Dialog.next (.start u)

/-- The log keeps the order, and the camera heard what it says. -/
structure Talked (u : RtspUrl) (t : RtspThread σ) : Prop where
  watched : Watched Dialog.next Dialog.Allows (.start u) t.log
  fdOpen : (t.dialog u).fdOpen = true
  outOpen : (t.dialog u).outOpen = true
  heard : ∃ part, t.conn.said = (sentRequests t.log).flatMap RtspRequest.text ++ part ∧
    (part = [] ∨ ∃ r, .asked r false ∈ t.log ∧ part <+: r.text ∧ part ≠ r.text)
  answers : ∀ a, .answered a ∈ t.log → EndsFirst a.hdr

/-- So far every request was sent. -/
structure Talking (u : RtspUrl) (t : RtspThread σ) : Prop extends Talked u t where
  sound : t.url.Sound fun _ => True
  cseq : t.cseq = (t.dialog u).asked + 1
  all : t.conn.said = (sentRequests t.log).flatMap RtspRequest.text

/-- What becomes of a request. -/
theorem rtspAsk_cases (peer : Peer UInt8 σ) (stack : Md5Ctx) (t : RtspThread σ)
    (hu : t.url.InArrays) (hurl : InArray 512 url) (hmethod : InArray 17 method)
    (hextra : InArray 192 extra) (hk : -2147483648 ≤ t.cseq ∧ t.cseq ≤ 2147483647) :
    let r := requestFor t.url url t.cseq method extra
    (∃ t', rtspAsk peer stack t url method extra = (none, t') ∧
        t'.log = t.log ++ [.asked r false] ∧
        ∃ k < r.text.length, t'.conn.said = t.conn.said ++ r.text.take k) ∨
      ∃ a t', rtspAsk peer stack t url method extra = (some a, t') ∧
        t'.log = t.log ++ [.asked r true, .answered a] ∧ t'.url = t.url ∧
        t'.cseq = t.cseq + 1 ∧ t'.conn.said = t.conn.said ++ r.text ∧ EndsFirst a.hdr := by
  intro r
  rcases Exchange.writeAll_said peer t.conn r.text with ⟨k, hk', hsaid, hall⟩
  unfold rtspAsk
  rw [rtspSend_eq peer t.conn hu hurl hmethod hextra hk]
  simp only [Option.map_some, Option.toList_some]
  by_cases hsent : (t.conn.writeAll peer r.text).1 = true
  · refine .inr ?_
    rw [if_pos hsent]
    refine ⟨_, _, rfl, ?_, rfl, rfl, ?_, rtspReadResponse_endsFirst _ _ _⟩
    · simp only [hsent, List.append_assoc, List.singleton_append, r]
    · rw [hall.mp hsent, List.take_length] at hsaid
      exact hsaid
  · refine .inl ?_
    rw [if_neg hsent]
    refine ⟨_, rfl, ?_, k, ?_, hsaid⟩
    · simp only [Bool.not_eq_true] at hsent
      simp only [hsent, r]
    · exact Nat.lt_of_le_of_ne hk' fun h => hsent (hall.mpr h)

variable (peer stack) in
/-- A request that has its place is sent in part and the dialog is over, or it is answered. -/
theorem Talking.ask (h : Talking u t) (hurl : (t.dialog u).url = t.url)
    (hlen : InArray 512 url) (hmethod : InArray 17 method) (hextra : InArray 192 extra)
    (hfew : (t.dialog u).asked < 10)
    (hfollows : (t.dialog u).Follows (requestFor t.url url t.cseq method extra)) :
    (∃ t', rtspAsk peer stack t url method extra = (none, t') ∧ Talked u t') ∨
      ∃ a t', rtspAsk peer stack t url method extra = (some a, t') ∧ Talking u t' ∧
        t'.url = t.url ∧ t'.dialog u = ((t.dialog u).next (.asked (requestFor t.url url t.cseq
          method extra) true)).next (.answered a) := by
  have hcseq := h.cseq
  have hallowed (sent : Bool) : (t.dialog u).Allows
      (.asked (requestFor t.url url t.cseq method extra) sent) := by
    refine ⟨h.fdOpen, hfollows, ?_⟩
    rw [hurl, hcseq]
    rfl
  -- The request is cut short and the dialog is over, or it is sent whole and answered.
  rcases rtspAsk_cases peer stack t h.sound.toInArrays hlen hmethod hextra (by omega) with
    ⟨t', hask, hlog, k, hk, hsaid⟩ | ⟨a, t', hask, hlog, hurl', hcseq', hsaid, hends⟩
  · refine .inl ⟨t', hask, ?_, ?_, ?_, ?_, ?_⟩
    · rw [hlog, watched_append]
      exact ⟨h.watched, (watched_cons ..).mpr ⟨hallowed false, watched_nil _ _ _⟩⟩
    · rw [RtspThread.dialog, hlog, List.foldl_append]
      exact h.fdOpen
    · rw [RtspThread.dialog, hlog, List.foldl_append]
      exact h.outOpen
    · refine ⟨(requestFor t.url url t.cseq method extra).text.take k, ?_,
        .inr ⟨_, ?_, List.take_prefix k _, ?_⟩⟩
      · rw [hsaid, h.all, hlog]
        simp [sentRequests]
      · rw [hlog]
        simp
      · intro hall
        have hlength := congrArg List.length hall
        rw [List.length_take] at hlength
        omega
    · intro a ha
      rw [hlog] at ha
      exact h.answers a (by simpa using ha)
  · have hdialog : t'.dialog u = ((t.dialog u).next (.asked (requestFor t.url url t.cseq method
        extra) true)).next (.answered a) := by
      rw [RtspThread.dialog, hlog, List.foldl_append]
      rfl
    have hall : t'.conn.said = (sentRequests t'.log).flatMap RtspRequest.text := by
      rw [hsaid, h.all, hlog]
      simp [sentRequests]
    refine .inr ⟨a, t', hask, ⟨⟨?_, ?_, ?_, ⟨[], ?_, .inl rfl⟩, ?_⟩, ?_, ?_, hall⟩, hurl', hdialog⟩
    · rw [hlog, watched_append]
      refine ⟨h.watched, ?_⟩
      simp only [watched_cons, watched_nil, and_true]
      exact ⟨hallowed true, h.fdOpen, rfl, rfl⟩
    · rw [hdialog]
      exact h.fdOpen
    · rw [hdialog]
      exact h.outOpen
    · rw [hall, List.append_nil]
    · intro b hb
      rw [hlog] at hb
      simp only [List.mem_append, List.mem_cons, List.not_mem_nil, or_false, reduceCtorEq,
        false_or, RtspEvent.answered.injEq] at hb
      rcases hb with hb | rfl
      · exact h.answers b hb
      · exact hends
    · rw [hurl']
      exact h.sound
    · rw [hcseq', hcseq, hdialog]
      rfl

variable (peer stack) in
/-- A request that has its place is accepted, or the dialog is over. -/
theorem Talking.accepted (h : Talking u t) (hurl : (t.dialog u).url = t.url)
    (hlen : InArray 512 url) (hmethod : InArray 17 method) (hextra : InArray 192 extra)
    (hfew : (t.dialog u).asked < 10)
    (hfollows : (t.dialog u).Follows (requestFor t.url url t.cseq method extra)) :
    (∃ t', rtspAccepted peer stack t url method extra = (none, t') ∧ Talked u t') ∨
      ∃ a t', rtspAccepted peer stack t url method extra = (some a, t') ∧ Talking u t' ∧
        t'.url = t.url ∧ (t'.dialog u).url = t'.url ∧
        (t'.dialog u).asked = (t.dialog u).asked + 1 ∧ (t'.dialog u).Accepted method a := by
  unfold rtspAccepted
  rcases h.ask peer stack hurl hlen hmethod hextra hfew hfollows with
    ⟨t', hask, htalked⟩ | ⟨a, t', hask, htalking, hurl', hdialog⟩
  · rw [hask]
    exact .inl ⟨t', rfl, htalked⟩
  · rw [hask]
    cases hok : a.ok with
    | false => exact .inl ⟨t', by simp only [hok, Bool.false_eq_true, if_false], htalking.toTalked⟩
    | true =>
      refine .inr ⟨a, t', by simp only [hok, if_true], htalking, hurl', ?_, ?_, hok, ?_,
        requestFor t.url url t.cseq method extra, ?_, rfl⟩
      · rw [hdialog, hurl', ← hurl]
        exact if_pos hok
      · rw [hdialog]
        rfl
      · rw [hdialog]
        rfl
      · rw [hdialog]
        rfl

theorem rtspBase_challenge (hdr : Option (List UInt8)) (u : RtspUrl) :
    rtspBase (rtspParseDigestChallenge hdr u).1 = rtspBase u := by
  unfold rtspParseDigestChallenge
  split
  · rfl
  · split
    · rfl
    · simp only
      split
      · rfl
      · split <;> rfl

/-- Whether there is a challenge does not depend on the record. -/
theorem rtspParseDigestChallenge_rc (hdr : Option (List UInt8)) (u v : RtspUrl) :
    (rtspParseDigestChallenge hdr u).2 = (rtspParseDigestChallenge hdr v).2 := by
  unfold rtspParseDigestChallenge
  split
  · rfl
  · split
    · rfl
    · simp only
      split
      · rfl
      · split <;> rfl

/-- The record of the thread changes with the challenge alone. -/
theorem Talking.setUrl (h : Talking u t) {v : RtspUrl} (hv : v.Sound fun _ => True) :
    Talking u { t with url := v } :=
  { h with sound := hv }

theorem describeExtra_inArray : InArray 192 describeExtra := by decide +kernel

variable (peer stack) in
/-- The first request, and the second one when the camera wants credentials. -/
theorem Talking.describe (h : Talking u t)
    (hstart : t.dialog u = (Dialog.start u).next .connected) (hurl : t.url = u) :
    (∃ t', rtspDescribe peer stack t (rtspBase u) = (none, t') ∧ Talked u t') ∨
      ∃ a t', rtspDescribe peer stack t (rtspBase u) = (some a, t') ∧ Talking u t' ∧
        (t'.dialog u).url = t'.url ∧ (t'.dialog u).asked ≤ 2 ∧ rtspBase t'.url = rtspBase u ∧
        (t'.dialog u).Accepted (ascii "DESCRIBE") a := by
  have hbase := (rtspBase_text (hurl ▸ h.sound.toInArrays)).1
  have hmethod : InArray 17 (ascii "DESCRIBE") := by decide +kernel
  unfold rtspDescribe
  rcases h.ask peer stack (by rw [hstart, hurl]; rfl) hbase hmethod
      describeExtra_inArray (by rw [hstart]; exact Nat.zero_lt_succ 9)
      (by rw [hstart]; exact ⟨rfl, rfl, rfl⟩) with
    ⟨t', hask, htalked⟩ | ⟨a, t', hask, htalking, hurl', hdialog⟩
  · rw [hask]
    exact .inl ⟨t', rfl, htalked⟩
  · rw [hask]
    rw [hstart] at hdialog
    simp only
    -- The camera takes the first request, or it wants credentials.
    by_cases hok : a.ok = true
    · rw [if_pos hok]
      refine .inr ⟨a, t', rfl, htalking, ?_, ?_, by rw [hurl', hurl], hok, ?_,
        requestFor t.url (rtspBase u) t.cseq (ascii "DESCRIBE") describeExtra, ?_, rfl⟩
      · rw [hdialog, hurl', hurl]
        exact if_pos hok
      · rw [hdialog]
        exact Nat.le_succ 1
      · rw [hdialog]
        rfl
      · rw [hdialog]
        rfl
    · rw [if_neg hok]
      have hchallenge : ((t'.dialog u).url) =
          (rtspParseDigestChallenge (some (cstr a.hdr)) t'.url).1 := by
        rw [hdialog, hurl', hurl]
        exact if_neg hok
      have hsound : (rtspParseDigestChallenge (some (cstr a.hdr)) t'.url).1.Sound
          fun _ => True :=
        rtspParseDigestChallenge_sound htalking.sound fun _ _ _ _ => trivial
      have hbase' : rtspBase (rtspParseDigestChallenge (some (cstr a.hdr)) t'.url).1 = rtspBase u :=
        (rtspBase_challenge _ t'.url).trans (by rw [hurl', hurl])
      -- A challenge that cannot be answered ends the dialog.
      by_cases hrc : (rtspParseDigestChallenge (some (cstr a.hdr)) t'.url).2 = 0
      · rw [if_pos hrc]
        have hsame : rtspBase (t'.dialog u).url = rtspBase u := by rw [hchallenge, hbase']
        have hfollows : (t'.dialog u).Follows (requestFor (rtspParseDigestChallenge
            (some (cstr a.hdr)) t'.url).1 (rtspBase u) t'.cseq (ascii "DESCRIBE")
            describeExtra) := by
          have hagain := (rtspParseDigestChallenge_rc (some (cstr a.hdr)) (t'.dialog u).url
            t'.url).trans hrc
          rw [hdialog] at hagain hsame ⊢
          exact .inl ⟨rfl, Bool.not_eq_true _ ▸ hok, rfl, hagain, rfl, hsame.symm, rfl⟩
        have hasked : (t'.dialog u).asked = 1 := by
          rw [hdialog]
          rfl
        rcases (htalking.setUrl hsound).accepted peer stack hchallenge hbase
            hmethod describeExtra_inArray (show (t'.dialog u).asked < 10 by omega) hfollows with
          ⟨t'', hacc, htalked⟩ | ⟨b, t'', hacc, htalking', hurl'', hdurl, hasked', haccepted⟩
        · exact .inl ⟨t'', hacc, htalked⟩
        · refine .inr ⟨b, t'', hacc, htalking', hdurl, ?_, ?_, haccepted⟩
          · rw [hasked']
            exact Nat.succ_le_succ (Nat.le_of_eq hasked)
          · rw [hurl'']
            exact hbase'
      · rw [if_neg hrc]
        exact .inl ⟨_, rfl, (htalking.setUrl hsound).toTalked⟩

theorem playExtra_eq (session : List UInt8) (hlen : session.length ≤ 127) (h0 : 0 ∉ session) :
    playExtra session = ascii "Session: " ++ session ++ crlf ∧ InArray 192 (playExtra session) := by
  have hname : (ascii "Session: ").length = 9 ∧ 0 ∉ ascii "Session: " := by decide +kernel
  have hshort : (ascii "Session: " ++ session ++ crlf).length ≤ 191 := by
    simp only [List.length_append, hname.1, crlf, List.length_cons, List.length_nil]
    omega
  have hwhole : playExtra session = ascii "Session: " ++ session ++ crlf :=
    List.take_of_length_le hshort
  refine ⟨hwhole, hwhole ▸ ⟨by omega, ?_⟩⟩
  simp only [List.mem_append, not_or]
  exact ⟨⟨hname.2, h0⟩, by decide⟩

variable (peer stack) in
/-- SETUP asks for what was described, and PLAY for the session. -/
theorem Talking.setup {a : RtspResponse} (h : Talking u t) (hurl : (t.dialog u).url = t.url)
    (hfew : (t.dialog u).asked ≤ 2) (hbase : rtspBase t.url = rtspBase u)
    (haccepted : (t.dialog u).Accepted (ascii "DESCRIBE") a) :
    (∃ t', rtspSetup peer stack t (rtspBase u) (cstr a.body) = (none, t') ∧ Talked u t') ∨
      ∃ b t', rtspSetup peer stack t (rtspBase u) (cstr a.body) = (some b, t') ∧ Talked u t' ∧
        (t'.dialog u).Playing := by
  have hbaseArray := (rtspBase_text h.sound.toInArrays).1
  rw [hbase] at hbaseArray
  have hcontrol : 0 ∉ sdpControl (cstr a.body) 256 := fun h0 =>
    cstr_zero a.body ((sdpControl_mem _ _ 0 h0).1)
  unfold rtspSetup
  simp only
  by_cases hlong : rtspAbsUrl 512 (rtspBase u) (sdpControl (cstr a.body) 256) = []
  · rw [if_pos hlong]
    exact .inl ⟨t, rfl, h.toTalked⟩
  rw [if_neg hlong]
  have hfollows : (t.dialog u).Follows (requestFor t.url (rtspAbsUrl 512 (rtspBase u)
      (sdpControl (cstr a.body) 256)) t.cseq (ascii "SETUP") setupExtra) := by
    obtain ⟨hok, hanswer, q, hrequest, hmethod⟩ := haccepted
    unfold Dialog.Follows
    rw [hrequest, hanswer, hurl, hbase]
    exact .inr (.inl ⟨hmethod, hok, rfl, rfl, hlong, rfl⟩)
  rcases h.accepted peer stack hurl (rtspAbsUrl_inArray hbaseArray hcontrol)
      (show InArray 17 (ascii "SETUP") by decide +kernel)
      (show InArray 192 setupExtra by decide +kernel) (by omega) hfollows with
    ⟨t', hacc, htalked⟩ | ⟨b, t', hacc, htalking, hurl', hdurl, hasked, haccepted'⟩
  · rw [hacc]
    exact .inl ⟨t', rfl, htalked⟩
  · rw [hacc]
    simp only
    by_cases hsession : rtspParseSession (cstr b.hdr) 128 = []
    · rw [if_pos hsession]
      exact .inl ⟨t', rfl, htalking.toTalked⟩
    rw [if_neg hsession]
    have hplay := playExtra_eq (rtspParseSession (cstr b.hdr) 128)
      (rtspParseSession_length _ _) fun h0 => cstr_zero b.hdr (rtspParseSession_mem _ _ 0 h0).1
    have hfollows' : (t'.dialog u).Follows (requestFor t'.url (rtspBase u) t'.cseq (ascii "PLAY")
        (playExtra (rtspParseSession (cstr b.hdr) 128))) := by
      obtain ⟨hok, hanswer, q, hrequest, hmethod⟩ := haccepted'
      unfold Dialog.Follows
      rw [hrequest, hanswer, hdurl, hurl', hbase]
      exact .inr (.inr ⟨hmethod, hok, rfl, rfl, hsession, hplay.1⟩)
    rcases htalking.accepted peer stack hdurl hbaseArray
        (show InArray 17 (ascii "PLAY") by decide +kernel) hplay.2 (by omega) hfollows' with
      ⟨t'', hacc', htalked⟩ | ⟨c, t'', hacc', htalking', -, -, -, hplaying⟩
    · exact .inl ⟨t'', hacc', htalked⟩
    · exact .inr ⟨c, t'', hacc', htalking'.toTalked, c, hplaying⟩

variable (peer stack) in
/-- The dialog up to the answer to PLAY. -/
theorem rtspDialog_talked (h : Talking u t)
    (hstart : t.dialog u = (Dialog.start u).next .connected) (hurl : t.url = u) :
    (∃ t', rtspDialog peer stack t (rtspBase u) = (none, t') ∧ Talked u t') ∨
      ∃ spspps t', rtspDialog peer stack t (rtspBase u) = (some spspps, t') ∧ Talked u t' ∧
        (t'.dialog u).Playing := by
  unfold rtspDialog
  rcases h.describe peer stack hstart hurl with
    ⟨t', hdesc, htalked⟩ | ⟨a, t', hdesc, htalking, hdurl, hfew, hbase, haccepted⟩
  · rw [hdesc]
    exact .inl ⟨t', rfl, htalked⟩
  · rw [hdesc]
    rcases htalking.setup peer stack hdurl hfew hbase haccepted with
      ⟨t'', hsetup, htalked⟩ | ⟨b, t'', hsetup, htalked, hplaying⟩
    · simp only [hsetup]
      exact .inl ⟨t'', rfl, htalked⟩
    · simp only [hsetup]
      exact .inr ⟨_, t'', rfl, htalked, hplaying⟩

end Dialogs

/-! ## Runs of the thread -/

section Runs

variable {σ τ : Type} {peer : Peer UInt8 σ} {stack : Md5Ctx} {net : Network σ}
  {put : τ → List UInt8 → τ × Bool} {handle : List UInt8 → τ → List UInt8 → τ × Bool}
  {u : RtspUrl} {log : List RtspEvent} {url said : List UInt8} {d : Dialog}

/-- What is left to say of a run: it keeps the order to the end, both descriptors are closed then,
and the camera heard the requests that were sent, and perhaps a part of the last one. -/
structure RanInOrder (u : RtspUrl) (log : List RtspEvent) (said : List UInt8) : Prop where
  watched : Watched Dialog.next Dialog.Allows (.start u) log
  closed : (log.foldl Dialog.next (.start u)).fdOpen = false ∧
    (log.foldl Dialog.next (.start u)).outOpen = false
  heard : ∃ part, said = (sentRequests log).flatMap RtspRequest.text ++ part ∧
    (part = [] ∨ ∃ r, .asked r false ∈ log ∧ part <+: r.text ∧ part ≠ r.text)
  answers : ∀ a, .answered a ∈ log → EndsFirst a.hdr

/-- Some events that only the receive loop has, and the end of the thread. -/
theorem Talked.ran {t : RtspThread σ} (h : Talked u t) (events : List RtspEvent)
    (hevents : ∀ e ∈ events, (∃ s, e = .put s) ∨ ∃ p, e = .packet p)
    (hplaying : events ≠ [] → (t.dialog u).Playing) :
    RanInOrder u (t.log ++ events ++ [.closedFd, .closedOut]) t.conn.said := by
  have hstill (d : Dialog) : events.foldl Dialog.next d = d := by
    refine foldl_of_forall (fun e he g => ?_) d
    rcases hevents e he with ⟨s, rfl⟩ | ⟨p, rfl⟩ <;> rfl
  have hnone : sentRequests (t.log ++ events ++ [.closedFd, .closedOut]) = sentRequests t.log := by
    have hnil : sentRequests events = [] := by
      refine List.filterMap_eq_nil_iff.mpr fun e he => ?_
      rcases hevents e he with ⟨s, rfl⟩ | ⟨p, rfl⟩ <;> rfl
    unfold sentRequests at hnil ⊢
    rw [List.filterMap_append, List.filterMap_append, hnil]
    simp
  refine ⟨?_, ?_, ?_, ?_⟩
  · rw [watched_append, watched_append, List.foldl_append, hstill]
    refine ⟨⟨h.watched, ?_⟩, ?_⟩
    · intro pre e post hsplit
      have hsame : pre.foldl Dialog.next (t.dialog u) = t.dialog u := by
        refine foldl_of_forall (fun e he g => ?_) _
        rcases hevents e (by rw [hsplit]; simp [he]) with ⟨s, rfl⟩ | ⟨p, rfl⟩ <;> rfl
      have hplays := hplaying (by rw [hsplit]; simp)
      rw [show pre.foldl Dialog.next (t.log.foldl Dialog.next (.start u)) = t.dialog u from hsame]
      rcases hevents e (by rw [hsplit]; simp) with ⟨s, rfl⟩ | ⟨p, rfl⟩
      · exact ⟨h.fdOpen, h.outOpen, hplays⟩
      · exact ⟨h.fdOpen, h.outOpen, hplays⟩
    · simp only [watched_cons, watched_nil, and_true]
      exact ⟨h.fdOpen, rfl, h.outOpen⟩
  · rw [List.foldl_append, List.foldl_append, hstill]
    exact ⟨rfl, rfl⟩
  · rcases h.heard with ⟨part, hsaid, hpart⟩
    refine ⟨part, by rw [hnone]; exact hsaid, hpart.imp id ?_⟩
    rintro ⟨r, hr, hbefore⟩
    exact ⟨r, List.mem_append_left _ (List.mem_append_left _ hr), hbefore⟩
  · intro a ha
    simp only [List.mem_append, List.mem_cons, List.not_mem_nil, reduceCtorEq, or_false] at ha
    rcases ha with ha | ha
    · exact h.answers a ha
    · rcases hevents _ ha with ⟨s, hs⟩ | ⟨p, hp⟩
      · cases hs
      · cases hp

variable (put handle) in
theorem rtspStream_events (spspps : List UInt8) (inbox : Source UInt8) (out : τ) :
    ∀ e ∈ (rtspStream put handle spspps inbox out).1,
      (∃ s, e = .put s) ∨ ∃ p, e = .packet p := by
  have hfirst : ∀ e ∈ (if 0 < spspps.length then [RtspEvent.put spspps] else []),
      (∃ s, e = .put s) ∨ ∃ p, e = .packet p := by
    intro e he
    split at he
    · exact .inl ⟨spspps, List.mem_singleton.mp he⟩
    · cases he
  intro e he
  unfold rtspStream at he
  generalize (if 0 < spspps.length then put out spspps else (out, true)) = written at he
  simp only at he
  split at he
  · rcases List.mem_append.mp he with he | he
    · exact hfirst e he
    · rcases List.mem_map.mp he with ⟨p, -, rfl⟩
      exact .inr ⟨p, rfl⟩
  · exact hfirst e he

theorem rtspConnected_ran {conn : Exchange UInt8 σ} (hu : u.Sound fun _ => True)
    (hsaid : conn.said = []) (out : τ) :
    let r := rtspConnected peer stack put handle u conn [.connected] out
    RanInOrder u r.log r.said := by
  have htalking : Talking u (⟨conn, u, 1, [.connected]⟩ : RtspThread σ) :=
    { watched := by simp [Dialog.Allows, Dialog.start]
      fdOpen := rfl
      outOpen := rfl
      heard := ⟨[], by simpa [sentRequests] using hsaid, .inl rfl⟩
      answers := by simp
      sound := hu
      cseq := rfl
      all := by simpa [sentRequests] using hsaid }
  unfold rtspConnected
  rcases rtspDialog_talked peer stack htalking rfl rfl with
    ⟨t', hdialog, htalked⟩ | ⟨spspps, t', hdialog, htalked, hplaying⟩
  · simp only [hdialog]
    have hran := htalked.ran [] (by simp) (by simp)
    rwa [List.append_nil] at hran
  · simp only [hdialog]
    exact htalked.ran _ (rtspStream_events put handle spspps t'.conn.inbox out) fun _ => hplaying

/-- A descriptor that is not connected is closed again. -/
theorem tcpConnectHost_cases (net : Network σ) (host : List UInt8) (port : ℤ) :
    tcpConnectHost net host port = (none, []) ∨
      tcpConnectHost net host port = (none, [.connected, .closedFd]) ∨
      ∃ state inbox,
        tcpConnectHost net host port = (some ⟨state, inbox, []⟩, [.connected]) := by
  unfold tcpConnectHost
  split
  · exact .inl rfl
  · cases net.inetAton host with
    | none => exact .inr (.inl rfl)
    | some addr =>
      simp only
      cases net.connect addr (port % 65536).toNat with
      | none => exact .inr (.inl rfl)
      | some conn => exact .inr (.inr ⟨conn.1, conn.2, rfl⟩)

theorem rtspThreadMain_ran (peer : Peer UInt8 σ) (stack : Md5Ctx) (net : Network σ)
    (put : τ → List UInt8 → τ × Bool) (handle : List UInt8 → τ → List UInt8 → τ × Bool)
    (url : List UInt8) (out : τ) :
    RanInOrder ((parseRtspUrl (cstr url)).getD .empty)
      (rtspThreadMain peer stack net put handle url out).log
      (rtspThreadMain peer stack net put handle url out).said := by
  have hunused (u : RtspUrl) : RanInOrder u [.closedOut] [] :=
    ⟨by simp [Dialog.Allows, Dialog.start], ⟨rfl, rfl⟩, ⟨[], rfl, .inl rfl⟩, by simp⟩
  unfold rtspThreadMain
  cases hparse : parseRtspUrl (cstr url) with
  | none => exact hunused .empty
  | some u =>
    have hu : u.Sound fun _ => True :=
      parseRtspUrl_sound (fun _ _ _ _ => trivial) (cstr_zero url) trivial hparse
    simp only [Option.getD_some]
    rcases tcpConnectHost_cases net u.host u.port with h | h | ⟨state, inbox, h⟩
    · rw [h]
      exact hunused u
    · rw [h]
      exact ⟨by simp [Dialog.Allows, Dialog.start, Dialog.next], ⟨rfl, rfl⟩, ⟨[], rfl, .inl rfl⟩,
        by simp⟩
    · rw [h]
      exact rtspConnected_ran hu rfl out

theorem rtspBase_noEmptyLine (hu : u.Sound NoEmptyLine) : NoEmptyLine (rtspBase u) := by
  have hscheme : IsLine crlf (ascii "rtsp://") := isLine_fixed (by decide +kernel)
  have hcolon : IsLine crlf [58] := isLine_fixed (by decide +kernel)
  have hport := (hscheme.around hcolon hu.host_p).around (isLine_decimal u.port)
    (show ¬ crlf ++ crlf <:+: [] by decide)
  rw [List.append_nil] at hport
  rw [(rtspBase_text hu.toInArrays).2]
  intro h
  exact ((infix_append_of_last hport.ends_both).mp h).elim hport.inner hu.path_p

/-- Every request that has its place is a block. -/
theorem Dialog.Follows.isBlock {r : RtspRequest} (hu : d.url.Sound NoEmptyLine)
    (hfollows : d.Follows r) (hr : r = requestFor d.url r.url (d.asked + 1) r.method r.extra) :
    IsBlock crlf2 r.text := by
  have hbase := rtspBase_noEmptyLine hu
  have hdescribe : IsLine crlf (ascii "DESCRIBE" ++ [32]) := isLine_fixed (by decide +kernel)
  have hsetup : IsLine crlf (ascii "SETUP" ++ [32]) := isLine_fixed (by decide +kernel)
  have hplay : IsLine crlf (ascii "PLAY" ++ [32]) := isLine_fixed (by decide +kernel)
  have haccept : describeExtra = ascii "Accept: application/sdp" ++ crlf ∧
      IsLine crlf (ascii "Accept: application/sdp") :=
    ⟨by decide +kernel, isLine_fixed (by decide +kernel)⟩
  have htransport : setupExtra = ascii "Transport: RTP/AVP/TCP;unicast;interleaved=0-1" ++ crlf ∧
      IsLine crlf (ascii "Transport: RTP/AVP/TCP;unicast;interleaved=0-1") :=
    ⟨by decide +kernel, isLine_fixed (by decide +kernel)⟩
  unfold Dialog.Follows at hfollows
  rw [hr]
  split at hfollows
  · obtain ⟨hmethod, hurl, hextra⟩ := hfollows
    rw [hmethod, hurl, hextra, haccept.1]
    exact requestFor_isBlock hu hbase hdescribe haccept.2
  · rename_i q a _ _
    rcases hfollows with ⟨-, -, -, -, hmethod, hurl, hextra⟩ | ⟨-, -, hmethod, hurl, -, hextra⟩ |
      ⟨-, -, hmethod, hurl, hsession, hextra⟩
    · rw [hmethod, hurl, hextra, haccept.1]
      exact requestFor_isBlock hu hbase hdescribe haccept.2
    · rw [hmethod, hurl, hextra, htransport.1]
      have hcontrol : 13 ∉ sdpControl (cstr a.body) 256 := fun hmem =>
        (sdpControl_mem _ _ 13 hmem).2 (by decide)
      exact requestFor_isBlock hu (rtspAbsUrl_noEmptyLine hbase hcontrol) hsetup htransport.2
    · rw [hmethod, hurl, hextra]
      refine requestFor_isBlock hu hbase hplay (isLine_fixed ⟨by simp [hsession], ?_⟩)
      have hname : ∀ c ∈ ascii "Session: ", c ∉ crlf := by decide +kernel
      intro c hc
      exact (List.mem_append.mp hc).elim (hname c) fun hc => (rtspParseSession_mem _ _ c hc).2
  · exact hfollows.elim

/-- A challenge brings no empty line into the record. -/
theorem Dialog.next_sound {e : RtspEvent} (hu : d.url.Sound NoEmptyLine)
    (he : ∀ a, e = .answered a → EndsFirst a.hdr) : (d.next e).url.Sound NoEmptyLine := by
  cases e with
  | answered a =>
    simp only [Dialog.next]
    split
    · exact hu
    · exact rtspParseDigestChallenge_sound hu fun s name hname hs =>
        rtspDigestParam_noEmptyLine hname (he a rfl).cstr hs
  | _ => exact hu

theorem asked_isBlock (hu : d.url.Sound NoEmptyLine)
    (hwatched : Watched Dialog.next Dialog.Allows d log)
    (hanswers : ∀ a, .answered a ∈ log → EndsFirst a.hdr) {r : RtspRequest} {sent : Bool}
    (hr : .asked r sent ∈ log) : IsBlock crlf2 r.text := by
  induction log generalizing d with
  | nil => cases hr
  | cons e log ih =>
    obtain ⟨hallowed, hrest⟩ := (watched_cons ..).mp hwatched
    rcases List.mem_cons.mp hr with rfl | hr
    · exact hallowed.2.1.isBlock hu hallowed.2.2
    · refine ih (Dialog.next_sound hu fun a ha => hanswers a (ha ▸ List.mem_cons_self)) hrest ?_ hr
      exact fun a ha => hanswers a (List.mem_cons_of_mem _ ha)

theorem sentRequests_mem {r : RtspRequest} (h : r ∈ sentRequests log) : .asked r true ∈ log := by
  rcases List.mem_filterMap.mp h with ⟨e, he, heq⟩
  cases e with
  | asked q sent =>
    cases sent with
    | true => exact Option.some.inj heq ▸ he
    | false => cases heq
  | _ => cases heq

/-- **Framing.** What the camera hears, taken apart at the empty lines, is the requests that were sent
and nothing else, whatever realm, nonce, session and control string it gave, when the URL that the
program was called with has no empty line; and what comes behind them is a part of a request whose
write failed. -/
theorem rtsp_requests_framed (peer : Peer UInt8 σ) (stack : Md5Ctx) (net : Network σ)
    (put : τ → List UInt8 → τ × Bool) (handle : List UInt8 → τ → List UInt8 → τ × Bool)
    (url : List UInt8) (out : τ) (hurl : NoEmptyLine (cstr url)) :
    ∃ part, Blocks.receive crlf2 [] (rtspThreadMain peer stack net put handle url out).said =
        ((sentRequests (rtspThreadMain peer stack net put handle url out).log).map
          RtspRequest.text, part) ∧
      (part = [] ∨ ∃ r, .asked r false ∈ (rtspThreadMain peer stack net put handle url out).log ∧
        part <+: r.text ∧ part ≠ r.text) := by
  have hran := rtspThreadMain_ran peer stack net put handle url out
  generalize rtspThreadMain peer stack net put handle url out = run at hran ⊢
  have hsound : ((parseRtspUrl (cstr url)).getD .empty).Sound NoEmptyLine := by
    cases hparse : parseRtspUrl (cstr url) with
    | none => exact .empty (by decide)
    | some u => exact parseRtspUrl_sound noEmptyLine_closed (cstr_zero url) hurl hparse
  have hblock {r : RtspRequest} {sent : Bool} (hr : .asked r sent ∈ run.log) :
      IsBlock crlf2 r.text := asked_isBlock hsound hran.watched hran.answers hr
  rcases hran.heard with ⟨part, hsaid, hpart⟩
  refine ⟨part, ?_, hpart⟩
  rw [hsaid, List.flatMap_def]
  refine receive_blocks ?_ (by decide) ?_
  · intro b hb
    rcases List.mem_map.mp hb with ⟨r, hr, rfl⟩
    exact hblock (sentRequests_mem hr)
  · rcases hpart with rfl | ⟨r, hr, hbefore, hne⟩
    · exact ⟨crlf2, ⟨List.suffix_rfl, fun pre hpre hends => hpre.eq_of_length_le hends.length_le⟩,
        List.nil_prefix, by decide⟩
    · exact ⟨r.text, hblock hr, hbefore, hne⟩

/-- A connection that breaks after five bytes. -/
def brokenPeer : Peer UInt8 ℕ := ⟨fun n => 5 - n, fun n xs => (n + xs.length, [])⟩

def brokenRun : RtspRunEnd Unit :=
  rtspThreadMain brokenPeer ⟨0, 0, 0, 0, 0, fun _ => 0⟩
    ⟨true, fun _ => some 0, fun _ _ => some (0, ⟨[], fun _ => 1⟩)⟩ (fun _ _ => ((), true))
    (fun _ _ _ => ((), true)) (ascii "rtsp://10.0.0.7/s") ()

/-- A part of the first request. -/
theorem rtsp_requests_framed_broken :
    ∃ part, receive crlf2 [] brokenRun.said = ((sentRequests brokenRun.log).map RtspRequest.text,
      part) ∧ part = ascii "DESCR" := by
  obtain ⟨part, hpart, -⟩ := rtsp_requests_framed brokenPeer ⟨0, 0, 0, 0, 0, fun _ => 0⟩
    ⟨true, fun _ => some 0, fun _ _ => some (0, ⟨[], fun _ => 1⟩)⟩ (fun _ _ => ((), true))
    (fun _ _ _ => ((), true)) (ascii "rtsp://10.0.0.7/s") () (by decide +kernel)
  have hcut : (receive crlf2 [] brokenRun.said).2 = ascii "DESCR" := by decide +kernel
  refine ⟨part, hpart, ?_⟩
  rw [show receive crlf2 [] brokenRun.said = _ from hpart] at hcut
  exact hcut

end Runs

end Stream
end ToonVpu
