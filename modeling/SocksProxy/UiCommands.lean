import SocksProxy.CliClient
import SocksProxy.OneResponse
import SocksProxy.RequestCodec

/-!
ui_mon_session.c: the commands of the interactive client on its authenticated fd.
A response is read into a buffer of the call, and the fd is kept when the call
fails; the next call then reads what the failed one has left.
-/
namespace SocksProxy.UiCommands

open ByteBuffer ByteScan Runs Kernel MonProtocol MonParsing RequestCodec OneResponse
open CliClient (fillArg zeroRequest oneArg_le firstArg_lt secondArg_lt)

def UI_RESPONSE_BUF_LEN : ℕ := MON_RESPONSE_HEADER_LEN + 65536

/-- The arguments of a command; the callers pass at most two. -/
structure UiCommand where
  cmd : UInt8
  nargs : UInt8
  arg0 : List UInt8
  arg1 : List UInt8
  nargs_le : nargs.toNat ≤ MON_MAX_ARGS

/-- encode_request; its fill_arg is that of mon_client.c. -/
def encodeRequest (c : UiCommand) (bufLen : ℕ) : Option (List UInt8) :=
  let req := zeroRequest c.cmd c.nargs c.nargs_le
  let filled :=
    (if c.nargs > 0 then fillArg req 0 firstArg_lt c.arg0 else some req).bind fun req =>
      if c.nargs > 1 then fillArg req 1 secondArg_lt c.arg1 else some req
  match filled.bind fun req => monRequestEncode req bufLen with
  | some bytes => if bytes.length > 0 then some bytes else none
  | none => none

/-- send_all with the kernel's answers: what was sent, and whether that is all.
Without an answer the send has timed out. -/
def sendAll : List WriteResult → List UInt8 → List UInt8 × Bool
  | _, [] => ([], true)
  | [], _ => ([], false)
  | w :: ws, buf =>
    match sysWrite buf.length w with
    | .error _ => ([], false)
    | .ok ⟨n, _⟩ =>
      if n = 0 then ([], false)
      else
        let (more, ok) := sendAll ws (buf.drop n)
        (buf.take n ++ more, ok)

/-- recv_response with the kernel's answers, `raw` being what was read so far:
what was read in the end, and the response. -/
def recvResponse : List ReadResult → List UInt8 → List UInt8 × Option MonResponse
  | [], raw => (raw, none)
  | r :: rs, raw =>
    if raw.length < UI_RESPONSE_BUF_LEN then
      match sysRead (UI_RESPONSE_BUF_LEN - raw.length) r with
      | .error _ => (raw, none)
      | .ok ⟨bytes, _⟩ =>
        if bytes = [] then (raw, none)
        else
          match monResponseDecode (raw ++ bytes) with
          | .needMore => recvResponse rs (raw ++ bytes)
          | .error => (raw ++ bytes, none)
          | .ok resp _ => (raw ++ bytes, some resp)
    else (raw, none)

/-- The authenticated fd: what went through it since the login. `broken` records
that a call failed after it had sent something; the code does not keep this. -/
structure UiSession where
  sent : List UInt8
  received : List UInt8
  broken : Bool
  deriving DecidableEq

/-- After connect_authenticated. -/
def uiSessionInit : UiSession where
  sent := []
  received := []
  broken := false

/-- A call and the kernel's answers during it. -/
structure UiCall where
  command : UiCommand
  writes : List WriteResult
  reads : List ReadResult

/-- send_command_on_fd. -/
def sendCommandOnFd (s : UiSession) (c : UiCall) : UiSession × Option MonResponse :=
  match encodeRequest c.command (3 + MON_MAX_ARGS * (1 + MON_MAX_ARG_LEN)) with
  | none => (s, none)
  | some request =>
    match sendAll c.writes request with
    | (out, false) => ({ s with sent := s.sent ++ out, broken := s.broken || !out.isEmpty }, none)
    | (out, true) =>
      let (raw, resp) := recvResponse c.reads []
      ({ sent := s.sent ++ out, received := s.received ++ raw
         broken := s.broken || resp.isNone }, resp)

/-- ui_run_command on an open fd. -/
def uiRunCommand (s : UiSession) (c : UiCall) : UiSession × Bool :=
  let (s, resp) := sendCommandOnFd s c
  (s, match resp with
    | some resp => resp.status = MON_STATUS_OK
    | none => false)

section Server

/-- The number of whole requests at the front of a stream. -/
def requestsFrom : ℕ → List UInt8 → ℕ
  | 0, _ => 0
  | n + 1, l =>
    let (p, rest) := scan monParserFeed (fun p => monParserIsDone p.state)
      (monParserInit monParserZero) l
    if p.state = .done then requestsFrom n rest + 1 else 0

def requestsIn (l : List UInt8) : ℕ := requestsFrom l.length l

/-- One frame for each of the first `n` requests, in order. -/
def frames (answer : ℕ → UInt8 × List UInt8) (n : ℕ) : List UInt8 :=
  (List.range n).flatMap fun i => monFrame (answer i).1 (answer i).2

/-- A call on an fd whose server answers request `i` with `answer i`: no more can
be received than the frames of the requests that were sent. -/
def UiStep (answer : ℕ → UInt8 × List UInt8) (s : UiSession) (c : UiCall) (s' : UiSession) : Prop :=
  (sendCommandOnFd s c).1 = s' ∧ s'.received <+: frames answer (requestsIn s'.sent)

/-- The call gives back what the server has answered to its own request. -/
def Belongs (answer : ℕ → UInt8 × List UInt8) (s : UiSession) (c : UiCall) : Prop :=
  ∀ resp, (sendCommandOnFd s c).2 = some resp → (resp.status, resp.bytes) = answer (requestsIn s.sent)

theorem requestsFrom_stream (reqs : List WireRequest) (n : ℕ) (h : reqs.length ≤ n) :
    requestsFrom n (stream reqs) = reqs.length := by
  induction reqs generalizing n with
  | nil =>
    cases n with
    | zero => rfl
    | succ n => rfl
  | cons q reqs ih =>
    cases n with
    | zero => exact absurd h (Nat.not_succ_le_zero _)
    | succ n =>
      obtain ⟨hends, hparsed⟩ := mon_ends_message monParserZero q.cmd q.args_count q.args_length
      have hscan := scan_of_ends hends (stream reqs)
      rw [stream, List.flatMap_cons, ← stream, WireRequest.bytes]
      simp only [requestsFrom]
      rw [hscan]
      dsimp only
      rw [if_pos hparsed.state_eq, ih n (Nat.le_of_succ_le_succ h), List.length_cons]

theorem requestsIn_stream (reqs : List WireRequest) : requestsIn (stream reqs) = reqs.length := by
  apply requestsFrom_stream
  induction reqs with
  | nil => exact Nat.zero_le _
  | cons q reqs ih =>
    have hpos : 0 < q.bytes.length := by simp [WireRequest.bytes, monMessage]
    rw [stream, List.flatMap_cons, ← stream, List.length_append, List.length_cons]
    omega

theorem frames_succ (answer : ℕ → UInt8 × List UInt8) (n : ℕ) :
    frames answer (n + 1) = frames answer n ++ monFrame (answer n).1 (answer n).2 := by
  rw [frames, List.range_succ, List.flatMap_append, List.flatMap_singleton]
  rfl

theorem frames_mono {answer : ℕ → UInt8 × List UInt8} {n m : ℕ} (h : n ≤ m) :
    frames answer n <+: frames answer m := by
  induction m, h using Nat.le_induction with
  | base => exact List.prefix_refl _
  | succ m _ ih =>
    rw [frames_succ]
    exact ih.trans (List.prefix_append _ _)

end Server

section Calls

theorem fillArg_header {r r' : MonRequest} {idx : ℕ} {hidx : idx < MON_MAX_ARGS} {s : List UInt8}
    (h : fillArg r idx hidx s = some r') : r'.version = r.version ∧ r'.cmd = r.cmd := by
  unfold fillArg at h
  split at h
  · exact absurd h (by simp)
  · obtain rfl := Option.some.inj h
    exact ⟨rfl, rfl⟩

theorem fillArg_header_if {r r' : MonRequest} {p : Prop} [Decidable p] {idx : ℕ}
    {hidx : idx < MON_MAX_ARGS} {s : List UInt8}
    (h : (if p then fillArg r idx hidx s else some r) = some r') :
    r'.version = r.version ∧ r'.cmd = r.cmd := by
  split at h
  · exact fillArg_header h
  · obtain rfl := Option.some.inj h
    exact ⟨rfl, rfl⟩

/-- What is sent is a request. -/
theorem encodeRequest_eq {c : UiCommand} {bufLen : ℕ} {bytes : List UInt8}
    (h : encodeRequest c bufLen = some bytes) :
    ∃ q : WireRequest, q.cmd = c.cmd ∧ q.bytes = bytes := by
  simp only [encodeRequest] at h
  generalize hfilled : Option.bind _ _ = filled at h
  cases filled with
  | none => exact absurd h (by simp)
  | some l =>
  dsimp only at h
  obtain ⟨r₂, hfilled, hl⟩ := Option.bind_eq_some_iff.mp hfilled
  obtain ⟨r₁, h₁, h₂⟩ := Option.bind_eq_some_iff.mp hfilled
  obtain ⟨hversion₁, hcmd₁⟩ := fillArg_header_if h₁
  obtain ⟨hversion₂, hcmd₂⟩ := fillArg_header_if h₂
  rw [monRequestEncode_eq r₂ (hversion₂.trans hversion₁)] at hl
  have hmessage : l = monMessage r₂.cmd r₂.data := by
    split at hl
    · exact (Option.some.inj hl).symm
    · exact absurd hl (by simp)
  have hbytes : l = bytes := by
    split at h
    · exact Option.some.inj h
    · exact absurd h (by simp)
  refine ⟨⟨r₂.cmd, r₂.data, ?_, data_le r₂⟩, hcmd₂.trans hcmd₁, ?_⟩
  · rw [r₂.data_length]
    exact r₂.nargs_le
  · rw [WireRequest.bytes, ← hmessage, hbytes]

theorem sendAll_whole (ws : List WriteResult) (buf : List UInt8) (h : (sendAll ws buf).2 = true) :
    (sendAll ws buf).1 = buf := by
  induction ws generalizing buf with
  | nil =>
    cases buf with
    | nil => rfl
    | cons b buf => exact absurd h (by simp [sendAll])
  | cons w ws ih =>
    cases buf with
    | nil => rfl
    | cons b buf =>
      unfold sendAll at h ⊢
      split at h
      · exact absurd h (by simp)
      next n hn _ =>
        split at h
        · exact absurd h (by simp)
        next hzero =>
          simp only [if_neg hzero]
          rw [ih _ h, List.take_append_drop]

/-- A response is decoded from all that the call has read. -/
theorem recvResponse_ok {rs : List ReadResult} {raw raw' : List UInt8} {resp : MonResponse}
    (h : recvResponse rs raw = (raw', some resp)) :
    ∃ consumed, monResponseDecode raw' = .ok resp consumed := by
  induction rs generalizing raw with
  | nil => exact absurd h (by simp [recvResponse])
  | cons r rs ih =>
    unfold recvResponse at h
    split at h
    · split at h
      · exact absurd h (by simp)
      next bytes hbytes _ =>
        split at h
        · exact absurd h (by simp)
        · split at h
          next => exact ih h
          next => exact absurd h (by simp)
          next out consumed hok =>
            simp only [Prod.mk.injEq, Option.some.injEq] at h
            obtain ⟨rfl, rfl⟩ := h
            exact ⟨consumed, hok⟩
    · exact absurd h (by simp)

variable {answer : ℕ → UInt8 × List UInt8} {s s' : UiSession} {c : UiCall}

/-- What is decoded from a part of the output is its first frame. -/
theorem decoded_first {status : UInt8} {payload rest raw : List UInt8} (hlen : payload.length < 65536)
    (hpre : raw <+: monFrame status payload ++ rest) {resp : MonResponse} {consumed : ℕ}
    (hok : monResponseDecode raw = .ok resp consumed) :
    monFrame status payload <+: raw ∧ resp.status = status ∧ resp.bytes = payload := by
  obtain ⟨more, hmore⟩ := hpre
  obtain ⟨-, -, hbytes, -, -, htake⟩ := monResponseDecode_ok hok
  have hresp : resp.bytes.length < 65536 := by
    rw [hbytes]
    exact resp.payloadLen.toNat_lt
  have hsplit : monFrame resp.status resp.bytes ++ (raw.drop consumed ++ more) =
      monFrame status payload ++ rest := by
    rw [← hmore, ← htake, ← List.append_assoc, List.take_append_drop]
  obtain ⟨out, hout, -, hstatus, -, hpayload, -⟩ := monResponseDecode_frame hlen status rest
  obtain ⟨out', hout', -, hstatus', -, hpayload', -⟩ :=
    monResponseDecode_frame hresp resp.status (raw.drop consumed ++ more)
  rw [hsplit, hout] at hout'
  simp only [MonDecode.ok.injEq] at hout'
  obtain ⟨rfl, -⟩ := hout'
  have hstatuses := hstatus'.symm.trans hstatus
  have hpayloads := hpayload'.symm.trans hpayload
  refine ⟨?_, hstatuses, hpayloads⟩
  rw [← hstatuses, ← hpayloads, ← htake]
  exact List.take_prefix _ _

/-- Every request that was sent has had its whole response read. -/
def CaughtUp (answer : ℕ → UInt8 × List UInt8) (s : UiSession) : Prop :=
  ∃ reqs : List WireRequest, s.sent = stream reqs ∧ s.received = frames answer reqs.length

theorem caughtUp_init : CaughtUp answer uiSessionInit := ⟨[], rfl, rfl⟩

/-- A call that returns a response has sent a request, and has decoded the
response from what it read. -/
theorem call_some {resp : MonResponse} (h : (sendCommandOnFd s c).2 = some resp) :
    ∃ (q : WireRequest) (raw : List UInt8) (consumed : ℕ),
      (sendCommandOnFd s c).1.sent = s.sent ++ q.bytes ∧
      (sendCommandOnFd s c).1.received = s.received ++ raw ∧
      monResponseDecode raw = .ok resp consumed := by
  unfold sendCommandOnFd at h ⊢
  cases hencode : encodeRequest c.command (3 + MON_MAX_ARGS * (1 + MON_MAX_ARG_LEN)) with
  | none => exact absurd h (by simp [hencode])
  | some request =>
    obtain ⟨q, -, hq⟩ := encodeRequest_eq hencode
    generalize hall : sendAll c.writes request = r at h
    obtain ⟨out, ok⟩ := r
    cases ok with
    | false => exact absurd h (by simp [hencode, hall])
    | true =>
      have hwhole := sendAll_whole c.writes request (by rw [hall])
      rw [hall] at hwhole
      have hout : out = q.bytes := hwhole.trans hq.symm
      generalize hrecv : recvResponse c.reads [] = r at h
      obtain ⟨raw, resp'⟩ := r
      simp only [hencode, hall] at h ⊢
      subst h
      obtain ⟨consumed, hok⟩ := recvResponse_ok hrecv
      exact ⟨q, raw, consumed, by rw [hout], rfl, hok⟩

/-- A call that returns none has sent nothing, or leaves a broken fd. -/
theorem call_none (h : (sendCommandOnFd s c).2 = none) :
    (sendCommandOnFd s c).1.broken = true ∨
      (sendCommandOnFd s c).1.sent = s.sent ∧ (sendCommandOnFd s c).1.received = s.received := by
  unfold sendCommandOnFd at h ⊢
  cases hencode : encodeRequest c.command (3 + MON_MAX_ARGS * (1 + MON_MAX_ARG_LEN)) with
  | none => exact Or.inr ⟨rfl, rfl⟩
  | some request =>
    generalize hall : sendAll c.writes request = r at h
    obtain ⟨out, ok⟩ := r
    simp only [hencode, hall] at h ⊢
    cases ok with
    | false =>
      cases out with
      | nil => exact Or.inr ⟨List.append_nil _, rfl⟩
      | cons b out => exact Or.inl (by simp)
    | true =>
      left
      simp only at h ⊢
      rw [h]
      simp

/-- Where the frames of some requests are still unread, a call gives back the first
of them, whatever it has asked for itself. -/
theorem response_of_lag (hanswer : ∀ i, (answer i).2.length < 65536) {reqs : List WireRequest}
    (hsent : s.sent = stream reqs) {n : ℕ} (hn : n ≤ reqs.length)
    (hreceived : s.received = frames answer n) (hstep : UiStep answer s c s') {resp : MonResponse}
    (hresp : (sendCommandOnFd s c).2 = some resp) :
    (resp.status, resp.bytes) = answer n ∧ frames answer (n + 1) <+: s'.received ∧
      ∃ q, s'.sent = stream (reqs ++ [q]) := by
  obtain ⟨rfl, hpre⟩ := hstep
  obtain ⟨q, raw, consumed, hout, hin, hok⟩ := call_some hresp
  have hsent' : (sendCommandOnFd s c).1.sent = stream (reqs ++ [q]) := by
    rw [hout, hsent, stream, stream, List.flatMap_append, List.flatMap_singleton]
  obtain ⟨rest, hrest⟩ := @frames_mono answer (n + 1) (reqs.length + 1) (Nat.succ_le_succ hn)
  rw [hsent', requestsIn_stream, List.length_append, List.length_singleton, ← hrest, frames_succ,
    hin, hreceived, List.append_assoc] at hpre
  have hraw := (List.prefix_append_right_inj _).mp hpre
  obtain ⟨hfirst, hstatus, hbytes⟩ := decoded_first (hanswer n) hraw hok
  refine ⟨by rw [hstatus, hbytes], ?_, q, hsent'⟩
  rw [frames_succ, hin, hreceived]
  exact (List.prefix_append_right_inj _).mpr hfirst

/-- On an fd that has caught up a response is that to the request of the call. -/
theorem response_of_caughtUp (hanswer : ∀ i, (answer i).2.length < 65536)
    (hcaught : CaughtUp answer s) (hstep : UiStep answer s c s') {resp : MonResponse}
    (hresp : (sendCommandOnFd s c).2 = some resp) :
    (resp.status, resp.bytes) = answer (requestsIn s.sent) ∧ CaughtUp answer s' := by
  obtain ⟨reqs, hsent, hreceived⟩ := hcaught
  obtain ⟨hmatch, hmore, q, hsent'⟩ :=
    response_of_lag hanswer hsent (Nat.le_refl _) hreceived hstep hresp
  obtain ⟨-, hpre⟩ := hstep
  have hlen : (reqs ++ [q]).length = reqs.length + 1 := by
    rw [List.length_append, List.length_singleton]
  rw [hsent', requestsIn_stream, hlen] at hpre
  refine ⟨by rw [hsent, requestsIn_stream]; exact hmatch, reqs ++ [q], hsent', ?_⟩
  rw [hlen]
  exact hpre.eq_of_length_le hmore.length_le

theorem broken_mono (h : UiStep answer s c s') (hs : s.broken = true) : s'.broken = true := by
  obtain ⟨rfl, -⟩ := h
  unfold sendCommandOnFd
  split
  · exact hs
  · split <;> simp [hs]

/-- On an fd on which no call has failed after sending something, every response
that was asked for has been read. -/
theorem caughtUp_of_run (hanswer : ∀ i, (answer i).2.length < 65536) {calls : List UiCall}
    (h : Run (UiStep answer) uiSessionInit calls s) (hwhole : s.broken = false) :
    CaughtUp answer s := by
  induction h with
  | nil => exact caughtUp_init
  | @snoc calls t u c _ hstep ih =>
    have ht : t.broken = false := by
      by_contra hbroken
      rw [Bool.not_eq_false] at hbroken
      exact absurd ((broken_mono hstep hbroken).symm.trans hwhole) (by simp)
    cases hresult : (sendCommandOnFd t c).2 with
    | some resp => exact (response_of_caughtUp hanswer (ih ht) hstep hresult).2
    | none =>
      obtain ⟨rfl, -⟩ := hstep
      rcases call_none hresult with hbroken | ⟨hsent, hreceived⟩
      · exact absurd (hbroken.symm.trans hwhole) (by simp)
      · obtain ⟨reqs, hreqs, hframes⟩ := ih ht
        exact ⟨reqs, hsent.trans hreqs, hreceived.trans hframes⟩

/-- ui_run_command succeeds only if its own command has. -/
theorem Belongs.uiRunCommand_ok (h : Belongs answer s c) (hok : (uiRunCommand s c).2 = true) :
    (answer (requestsIn s.sent)).1 = MON_STATUS_OK := by
  simp only [uiRunCommand] at hok
  cases hresult : (sendCommandOnFd s c).2 with
  | none => simp [hresult] at hok
  | some resp =>
    rw [← h resp hresult]
    simpa [hresult] using hok

/-- Responses belong to their commands, on every fd on which no earlier call has
failed after it had sent something; and so do the successes of ui_run_command. -/
theorem responses_belong (hanswer : ∀ i, (answer i).2.length < 65536) {calls : List UiCall}
    (h : Run (UiStep answer) uiSessionInit calls s) (hwhole : s.broken = false)
    (hstep : UiStep answer s c s') : Belongs answer s c ∧
      ((uiRunCommand s c).2 = true → (answer (requestsIn s.sent)).1 = MON_STATUS_OK) := by
  have hbelongs : Belongs answer s c := by
    intro resp hresp
    exact (response_of_caughtUp hanswer (caughtUp_of_run hanswer h hwhole) hstep hresp).1
  exact ⟨hbelongs, hbelongs.uiRunCommand_ok⟩

end Calls

section Stale

/-- Deletes a user; `reads` is what happens while the response is awaited. -/
private def deletion (name : UInt8) (reads : List ReadResult) : UiCall where
  command := ⟨MON_CMD_DEL_USER, 1, [name], [], oneArg_le⟩
  writes := [.accept 5]
  reads := reads

/-- The first deletion succeeds, and there is no user to delete for the others. -/
private def deletions (i : ℕ) : UInt8 × List UInt8 :=
  if i = 0 then (MON_STATUS_OK, []) else (MON_STATUS_USER_NOT_FOUND, [])

private theorem deletions_length (i : ℕ) : (deletions i).2.length < 65536 := by
  unfold deletions
  split <;> decide

/-- send_all sends the whole request. -/
def UiCall.Sends (c : UiCall) : Prop :=
  ∀ request, encodeRequest c.command (3 + MON_MAX_ARGS * (1 + MON_MAX_ARG_LEN)) = some request →
    (sendAll c.writes request).2 = true

/-- Two commands, each with its response. -/
theorem responses_belong_two :
    ∃ s, Run (UiStep deletions) uiSessionInit [deletion 97 [.data 1 [0], .data 0 [0]]] s ∧
      Belongs deletions s (deletion 98 [.data 1 [4, 0, 0]]) := by
  have hfirst : UiStep deletions uiSessionInit (deletion 97 [.data 1 [0], .data 0 [0]])
      ⟨[1, 2, 1, 1, 97], [1, 0, 0, 0], false⟩ := by
    unfold UiStep
    decide +kernel
  have hsecond : UiStep deletions ⟨[1, 2, 1, 1, 97], [1, 0, 0, 0], false⟩
      (deletion 98 [.data 1 [4, 0, 0]])
      ⟨[1, 2, 1, 1, 97, 1, 2, 1, 1, 98], [1, 0, 0, 0, 1, 4, 0, 0], false⟩ := by
    unfold UiStep
    decide +kernel
  exact ⟨_, Run.single hfirst,
    (responses_belong deletions_length (Run.single hfirst) rfl hsecond).1⟩

/-- The response to the first deletion comes after recv has timed out. The second
deletion, of a user that does not exist, reads it and reports success. -/
theorem late_response_misread :
    ¬ ∀ answer : ℕ → UInt8 × List UInt8, (∀ i, (answer i).2.length < 65536) →
      ∀ (calls : List UiCall) (s : UiSession), Run (UiStep answer) uiSessionInit calls s →
      (∀ c ∈ calls, c.Sends) → ∀ (c : UiCall) (s' : UiSession), c.Sends → UiStep answer s c s' →
      Belongs answer s c := by
  intro hclaim
  have hfirst : UiStep deletions uiSessionInit (deletion 97 [.again])
      ⟨[1, 2, 1, 1, 97], [], true⟩ := by
    unfold UiStep
    decide +kernel
  have hsecond : UiStep deletions ⟨[1, 2, 1, 1, 97], [], true⟩ (deletion 98 [.data 1 [0, 0, 0]])
      ⟨[1, 2, 1, 1, 97, 1, 2, 1, 1, 98], [1, 0, 0, 0], true⟩ := by
    unfold UiStep
    decide +kernel
  have hsends : ∀ name : UInt8, name = 97 ∨ name = 98 → ∀ reads, (deletion name reads).Sends := by
    intro name hname reads request hrequest
    have hencode : encodeRequest ⟨MON_CMD_DEL_USER, 1, [name], [], oneArg_le⟩
        (3 + MON_MAX_ARGS * (1 + MON_MAX_ARG_LEN)) = some [1, 2, 1, 1, name] := by
      rcases hname with rfl | rfl <;> decide +kernel
    obtain rfl := Option.some.inj (hencode.symm.trans hrequest)
    rfl
  have hbelongs := hclaim deletions deletions_length _ _ (Run.single hfirst)
    (by
      intro c hc
      rw [List.mem_singleton] at hc
      rw [hc]
      exact hsends 97 (Or.inl rfl) _) _ _ (hsends 98 (Or.inr rfl) _) hsecond
  have hresult : (sendCommandOnFd ⟨[1, 2, 1, 1, 97], [], true⟩ (deletion 98 [.data 1 [0, 0, 0]])).2 =
      some ⟨MON_VERSION, MON_STATUS_OK, 0, none⟩ := by decide +kernel
  have hmatch := hbelongs _ hresult
  have hindex : requestsIn [1, 2, 1, 1, 97] = 1 := by decide +kernel
  dsimp only at hmatch
  rw [hindex] at hmatch
  exact absurd (congrArg Prod.fst hmatch) (by decide)

end Stale

end SocksProxy.UiCommands
