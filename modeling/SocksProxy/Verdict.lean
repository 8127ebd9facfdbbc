import SocksProxy.LoginReads
import SocksProxy.Lockstep

/-!
A server that has the whole client stream at hand. Its answer is a function of
the stream, of the outcome of the credential lookup, of the kernel's answers to
the request and of what then happens to the origin. It has no buffers to fill
and no events to wait for, and so no segments to depend on.
-/
namespace SocksProxy.Verdict

open ByteBuffer ByteScan Hello Auth Request UserTable Kernel Stm ConnState Connect Connection
open Stages LoginReads RequestReads Lockstep

section Server

variable (found : List UInt8 → List UInt8 → Bool) (kernel : Sys) (dials : List Event)

/-- A connection on which the request `p` was just parsed. -/
def requested (p : RequestParser) : Conn :=
  { socks5Init 0 userTableInit with
    current := some .requestRead, request := p, requestReply := SOCKS5_REPLY_GENERAL_FAILURE }

/-- What becomes of it when the events `dials` follow. -/
def dialled (p : RequestParser) : Conn :=
  dials.foldl (fun d e => (handle d e).getD d)
    (socksv5ApplyAction (actionAfter (requestDecide kernel (requested p))))

/-- The state after its reply, if it has one. -/
def dialState (d : Conn) : Socks5State :=
  if d.current = some .connecting then .connecting
  else if d.requestReply = SOCKS5_REPLY_SUCCEEDED then .relay
  else .done

/-- The answer to a stream that starts at the request. -/
def requestVerdict (stream : List UInt8) : List UInt8 × Socks5State :=
  let p := (scan requestParserFeed (fun p => requestIsDone p.state) requestStart stream).1
  if requestIsDone p.state then
    let d := dialled kernel dials p
    ([0x05, 0x02] ++ [0x01, 0x00] ++ bufferReadPtr d.writeBuffer, dialState d)
  else ([0x05, 0x02] ++ [0x01, 0x00], .requestRead)

/-- The answer to a stream that starts at the authentication. -/
def authVerdict (stream : List UInt8) : List UInt8 × Socks5State :=
  let (p, rest) := scan authParserFeed (fun p => authIsDone p.state) authStart stream
  if authIsErrored p.state then ([0x05, 0x02], .error)
  else if authIsDone p.state = false then ([0x05, 0x02], .authRead)
  else if found (cString p.uname.toList) (cString p.passwd.toList) then
    requestVerdict kernel dials rest
  else ([0x05, 0x02] ++ [0x01, AUTH_STATUS_FAILURE], .error)

/-- The answer to a stream: the bytes sent, and the state reached. -/
def verdict (stream : List UInt8) : List UInt8 × Socks5State :=
  let (p, rest) :=
    scan (helloParserFeed (some onHelloMethod)) (fun p => helloIsDone p.state) helloStart stream
  if helloIsErrored p.state then ([], .error)
  else if helloIsDone p.state = false then ([], .helloRead)
  else if p.data = SOCKS_HELLO_NO_ACCEPTABLE_METHODS then
    ([0x05, SOCKS_HELLO_NO_ACCEPTABLE_METHODS], .error)
  else authVerdict found kernel dials rest

end Server

variable {found : List UInt8 → List UInt8 → Bool} {kernel : Sys} {dials : List Event}

section Hello

variable {stream r methods : List UInt8}

theorem verdict_unfinished (h : HelloUnfinished stream) :
    verdict found kernel dials stream = ([], .helloRead) := by
  have hdone : helloIsDone (helloSeen stream).state = false := by
    by_cases hne : stream = []
    · rw [hne]
      rfl
    · exact h.unfinished hne
  have herr : helloIsErrored (helloSeen stream).state = false := by
    by_contra herr
    have herr := helloErrored_done (helloSeen stream) (by simpa using herr)
    rw [hdone] at herr
    exact absurd herr (by decide)
  unfold verdict
  rw [scan_of_unfinished h]
  change (if helloIsErrored (helloSeen stream).state then _ else
    if helloIsDone (helloSeen stream).state = false then _ else _) = _
  rw [herr, hdone]
  rfl

theorem verdict_bad {x : UInt8} (hx : x ≠ 0x05) :
    verdict found kernel dials (x :: r) = ([], .error) := by
  simp [verdict, scan, helloParserFeed, helloStart, helloIsDone, helloIsErrored, hx]

private theorem scan_hello (h : methods.length ≤ 255) :
    scan (helloParserFeed (some onHelloMethod)) (fun p => helloIsDone p.state) helloStart
        (helloMessage methods ++ r) =
      ({ data := method methods, state := .helloDone, remaining := 0 }, r) := by
  have hends := hello_ends_message onHelloMethod helloStart h
  have hscan := scan_of_ends hends r
  rcases hello_ends_cases onHelloMethod (p := helloStart) hends with
    ⟨x, hx, hm, -⟩ | ⟨methods', -, hm, hfinal⟩
  · exact absurd (congrArg List.head? hm) (by simpa [helloMessage] using Ne.symm hx)
  · have heq : methods' = methods := by
      simp only [helloMessage, List.cons.injEq] at hm
      exact hm.2.2.symm
    have hdata : methods.foldl onHelloMethod helloStart.data = method methods :=
      foldl_method methods
    have hparser : feedAll (helloParserFeed (some onHelloMethod)) helloStart
        (helloMessage methods) = _ := hfinal
    rw [heq, hdata] at hparser
    rw [← hparser]
    exact hscan

theorem verdict_message (h : methods.length ≤ 255) :
    verdict found kernel dials (helloMessage methods ++ r) =
      if SOCKS_HELLO_USERNAME_PASSWORD ∈ methods then authVerdict found kernel dials r
      else ([0x05, method methods], .error) := by
  have hne : SOCKS_HELLO_USERNAME_PASSWORD ≠ SOCKS_HELLO_NO_ACCEPTABLE_METHODS := by decide
  unfold verdict
  rw [scan_hello h]
  dsimp only
  rw [if_neg (by simp [helloIsErrored]), if_neg (by simp [helloIsDone])]
  by_cases hmem : SOCKS_HELLO_USERNAME_PASSWORD ∈ methods
  · simp [method, hmem, hne]
  · simp [method, hmem]

end Hello

section Auth

variable {stream r u p : List UInt8}

theorem authVerdict_unfinished (h : AuthUnfinished stream) :
    authVerdict found kernel dials stream = ([0x05, 0x02], .authRead) := by
  have hdone : authIsDone (authSeen stream).state = false := by
    by_cases hne : stream = []
    · rw [hne]
      rfl
    · exact h.unfinished hne
  have herr : authIsErrored (authSeen stream).state = false := by
    by_contra herr
    have herr := authErrored_done (authSeen stream) (by simpa using herr)
    rw [hdone] at herr
    exact absurd herr (by decide)
  unfold authVerdict
  rw [scan_of_unfinished h]
  change (if authIsErrored (authSeen stream).state then _ else
    if authIsDone (authSeen stream).state = false then _ else _) = _
  rw [herr, hdone]
  rfl

theorem authVerdict_bad {x : UInt8} (hx : x ≠ 0x01) :
    authVerdict found kernel dials (x :: r) = ([0x05, 0x02], .error) := by
  simp [authVerdict, scan, authParserFeed, authStart, authParserInit, authIsDone, authIsErrored, hx]

theorem authVerdict_message (hu : u.length ≤ 255) (hp : p.length ≤ 255) :
    authVerdict found kernel dials (authMessage u p ++ r) =
      if found (cString u) (cString p) then requestVerdict kernel dials r
      else ([0x05, 0x02] ++ [0x01, AUTH_STATUS_FAILURE], .error) := by
  obtain ⟨hends, hstate, huname, hpasswd⟩ := auth_ends_message authParserZero hu hp
  have hscan := scan_of_ends hends r
  unfold authVerdict authStart
  rw [hscan]
  dsimp only
  rw [hstate, huname.cString_eq, hpasswd.cString_eq]
  rfl

end Auth

section Request

variable {stream m r : List UInt8}

theorem requestVerdict_unfinished (h : RequestUnfinished stream) :
    requestVerdict kernel dials stream = ([0x05, 0x02] ++ [0x01, 0x00], .requestRead) := by
  have hdone : requestIsDone (requestSeen stream).state = false := by
    by_cases hne : stream = []
    · rw [hne]
      rfl
    · exact h.unfinished hne
  unfold requestVerdict
  rw [scan_of_unfinished h]
  change (if requestIsDone (requestSeen stream).state then _ else _) = _
  rw [hdone]
  rfl

theorem requestVerdict_ends
    (h : Ends requestParserFeed (fun p => requestIsDone p.state) requestStart m) :
    requestVerdict kernel dials (m ++ r) =
      ([0x05, 0x02] ++ [0x01, 0x00] ++
        bufferReadPtr (dialled kernel dials (requestSeen m)).writeBuffer,
        dialState (dialled kernel dials (requestSeen m))) := by
  have hdone : requestIsDone (requestSeen m).state = true := h.finished
  unfold requestVerdict
  rw [scan_of_ends h]
  change (if requestIsDone (requestSeen m).state then _ else _) = _
  rw [hdone]
  rfl

end Request

end SocksProxy.Verdict
