import SocksProxy.Pending

/-!
The attempts that a connection makes to reach its origin. A chronicle of a run
lists them, each with the kernel's answers and with what the socket said when it
became writable; it is read off the calls, not off the code. The loop of
start_resolved_connect makes attempts in the order of its list until one does
not fail.
-/
namespace SocksProxy.Attempts

open Request Kernel ConnState Connect Connection Dialing

section Chronicle

/-- One call of register_origin_connect. `late` is what SO_ERROR said about a
socket whose connect() had not finished at once. -/
structure Try where
  addr : SockAddr
  answers : Attempt
  late : Option Status

/-- What the kernel's answers amount to: an error of socket(), of the O_NONBLOCK
flag, of connect() or of the registration, or the answer of connect(). -/
def outcome (a : Attempt) : Status :=
  match a.socket, a.setNio, a.connect with
  | .error e, _, _ => .failed e
  | .ok _, some e, _ => .failed e
  | .ok _, none, .failed e => .failed e
  | .ok _, none, status => if a.register then status else .failed .ECONNREFUSED

def Try.status (t : Try) : Status :=
  match outcome t.answers with
  | .inProgress => t.late.getD .inProgress
  | status => status

def Try.fd (t : Try) : Option ℕ := t.answers.socket.toOption

def Try.Failed (t : Try) : Prop := ∃ e, t.status = .failed e

def isFailed : Status → Bool
  | .failed _ => true
  | _ => false

theorem Try.failed_iff {t : Try} : t.Failed ↔ isFailed t.status = true := by
  unfold Try.Failed
  cases t.status <;> simp [isFailed]

/-- The calls of an attempt: a socket that is not kept is closed. -/
def Try.calls (t : Try) : List Call :=
  .registerOriginConnect t.addr ::
    if t.fd.isSome ∧ isFailed t.status = true then [.close .origin] else []

/-- The addresses that were dialled by some calls. -/
def dialled (u : List Call) : List SockAddr :=
  u.filterMap fun
    | .registerOriginConnect addr => some addr
    | _ => none

/-- The calls that open and close sockets to the origin. -/
def isDial : Call → Bool
  | .registerOriginConnect _ => true
  | .close .origin => true
  | _ => false

def dialCalls (u : List Call) : List Call := u.filter isDial

/-- Attempts at `addrs`, the first of them answered by `sys.attempt n`. -/
def tryAll (sys : Sys) : ℕ → List SockAddr → List Try
  | _, [] => []
  | n, addr :: addrs => ⟨addr, sys.attempt n, none⟩ :: tryAll sys (n + 1) addrs

/-- The attempts among the calls of one handler. -/
def made (sys : Sys) (u : List Call) : List Try := tryAll sys 0 (dialled u)

/-- A socket that was still connecting says how it went. -/
def Try.settle (status : Status) (t : Try) : Try :=
  if t.status = .inProgress then { t with late := some status } else t

/-- The attempts known after the event `e` took `c` to `c'`. -/
def observe (c c' : Conn) (e : Event) (tries : List Try) : List Try :=
  let u := c'.trace.drop c.trace.length
  match e with
  | .clientRead sys => tries ++ made sys u
  | .clientWrite sys => tries ++ made sys u
  | .originRead sys => tries ++ made sys u
  | .originWrite sys => tries.map (Try.settle (originConnectError sys c)) ++ made sys u
  | .blockDone sys => tries ++ made sys u
  | _ => tries

/-- A step of the connection, with the attempts known before and after it. -/
def Chronicled (a : Conn × List Try) (e : Event) (b : Conn × List Try) : Prop :=
  Step a.1 e b.1 ∧ b.2 = observe a.1 b.1 e a.2

end Chronicle

section Tries

variable {t : Try} {ts us : List Try} {u v : List Call} {sys : Sys} {status : Status} {n : ℕ}

@[simp] theorem dialled_nil : dialled [] = [] := rfl

@[simp] theorem dialled_append (u v : List Call) : dialled (u ++ v) = dialled u ++ dialled v :=
  List.filterMap_append

@[simp] theorem dialCalls_nil : dialCalls [] = [] := rfl

@[simp] theorem dialCalls_append (u v : List Call) :
    dialCalls (u ++ v) = dialCalls u ++ dialCalls v := List.filter_append ..

theorem dialled_calls (t : Try) : dialled t.calls = [t.addr] := by
  unfold Try.calls
  split <;> rfl

theorem dialCalls_calls (t : Try) : dialCalls t.calls = t.calls := by
  unfold Try.calls
  split <;> rfl

theorem dialled_flatMap (ts : List Try) : dialled (ts.flatMap Try.calls) = ts.map Try.addr := by
  induction ts with
  | nil => rfl
  | cons t ts ih => rw [List.flatMap_cons, dialled_append, dialled_calls, ih, List.map_cons]; rfl

theorem dialCalls_flatMap (ts : List Try) :
    dialCalls (ts.flatMap Try.calls) = ts.flatMap Try.calls := by
  induction ts with
  | nil => rfl
  | cons t ts ih => rw [List.flatMap_cons, dialCalls_append, dialCalls_calls, ih]

@[simp] theorem tryAll_length (sys : Sys) (n : ℕ) (addrs : List SockAddr) :
    (tryAll sys n addrs).length = addrs.length := by
  induction addrs generalizing n with
  | nil => rfl
  | cons addr addrs ih => rw [tryAll, List.length_cons, ih, List.length_cons]

theorem tryAll_addrs (sys : Sys) (n : ℕ) (addrs : List SockAddr) :
    (tryAll sys n addrs).map Try.addr = addrs := by
  induction addrs generalizing n with
  | nil => rfl
  | cons addr addrs ih => rw [tryAll, List.map_cons, ih]

/-- The attempts are read off the calls they make. -/
theorem made_calls (sys : Sys) (addrs : List SockAddr) :
    made sys ((tryAll sys 0 addrs).flatMap Try.calls) = tryAll sys 0 addrs := by
  rw [made, dialled_flatMap, tryAll_addrs]

/-- What is known of the last attempt; the error of the loop before it starts is
EHOSTUNREACH. -/
def latestOr (e : Errno) (ts : List Try) : Status := (ts.getLast?.map Try.status).getD (.failed e)

def latest (ts : List Try) : Status := latestOr .EHOSTUNREACH ts

/-- The descriptor of the last attempt. -/
def latestFd (ts : List Try) : Option ℕ := ts.getLast?.bind Try.fd

theorem latestOr_append (e : Errno) (ts : List Try) (h : us ≠ []) :
    latestOr e (ts ++ us) = latestOr e us := by
  rw [latestOr, latestOr, List.getLast?_append_of_ne_nil _ h]

theorem latestFd_append (ts : List Try) (h : us ≠ []) : latestFd (ts ++ us) = latestFd us := by
  rw [latestFd, latestFd, List.getLast?_append_of_ne_nil _ h]

theorem latestOr_cons (e : Errno) (t : Try) (h : ts ≠ []) : latestOr e (t :: ts) = latestOr e ts :=
  latestOr_append e [t] h

theorem latestFd_cons (t : Try) (h : ts ≠ []) : latestFd (t :: ts) = latestFd ts :=
  latestFd_append [t] h

theorem latest_snoc (ts : List Try) (t : Try) : latest (ts ++ [t]) = t.status := by
  rw [latest, latestOr_append _ _ (List.cons_ne_nil _ _)]
  rfl

/-- Only the last attempt can have another error than the one of the loop. -/
theorem latestOr_of_ne_nil (e e' : Errno) (h : ts ≠ []) : latestOr e ts = latestOr e' ts := by
  obtain ⟨t, ht⟩ := List.getLast?_isSome.mpr h |> Option.isSome_iff_exists.mp
  rw [latestOr, latestOr, ht]
  rfl

theorem settle_of_ne (h : t.status ≠ .inProgress) : t.settle status = t := if_neg h

theorem map_settle (h : ∀ t ∈ ts, t.status ≠ .inProgress) : ts.map (Try.settle status) = ts := by
  have hid : ∀ t ∈ ts, t.settle status = id t := fun t hmem => settle_of_ne (h t hmem)
  rw [List.map_congr_left hid, List.map_id]

theorem settle_status (h : t.status = .inProgress) : (t.settle status).status = status := by
  have hout : outcome t.answers = .inProgress := by
    revert h
    unfold Try.status
    split
    next heq => exact fun _ => heq
    next => exact id
  rw [Try.settle, if_pos h]
  simp [Try.status, hout]

@[simp] theorem settle_addr (status : Status) (t : Try) : (t.settle status).addr = t.addr := by
  unfold Try.settle
  split <;> rfl

@[simp] theorem settle_fd (status : Status) (t : Try) : (t.settle status).fd = t.fd := by
  unfold Try.settle
  split <;> rfl

theorem Try.Failed.ne (h : t.Failed) : t.status ≠ .inProgress := by
  obtain ⟨e, he⟩ := h
  rw [he]
  simp

end Tries

section Loop

/-! The loop of start_resolved_connect makes attempts until one does not fail. -/

variable {sys : Sys} {c : Conn} {n : ℕ}

/-- The fields of a connection that are about its lookup. -/
def lookupOf (c : Conn) : ℤ × List AddrInfo := (c.dnsError, c.dnsResult)

theorem registerOriginConnect_try (a : Attempt) (addr : SockAddr) (c : Conn) :
    (registerOriginConnect a addr c).1 = outcome a ∧
      (registerOriginConnect a addr c).2.trace = c.trace ++ Try.calls ⟨addr, a, none⟩ ∧
      lookupOf (registerOriginConnect a addr c).2 = lookupOf c ∧
      (registerOriginConnect a addr c).2.dnsNext = c.dnsNext ∧
      (isFailed (outcome a) = false →
        (registerOriginConnect a addr c).2.originFd = Try.fd ⟨addr, a, none⟩) := by
  obtain ⟨socket, nio, status, register⟩ := a
  cases socket with
  | error e =>
    simp [registerOriginConnect, outcome, Try.calls, Try.fd, Except.toOption, lookupOf, Conn.log,
      isFailed]
  | ok fd =>
    cases nio with
    | some e =>
      simp [registerOriginConnect, outcome, Try.calls, Try.fd, Try.status, Except.toOption,
        lookupOf, Conn.log, isFailed]
    | none =>
      cases status <;> cases register <;>
        simp [registerOriginConnect, outcome, Try.calls, Try.fd, Try.status, Except.toOption,
          lookupOf, Conn.log, isFailed]

/-- What the loop made of the first `k` addresses of `ais`. -/
structure Walked (sys : Sys) (n : ℕ) (lastError : Errno) (ais : List AddrInfo) (c : Conn)
    (r : Status × Conn) (k : ℕ) : Prop where
  le : k ≤ ais.length
  trace_eq : r.2.trace =
    c.trace ++ (tryAll sys n ((ais.take k).map AddrInfo.addr)).flatMap Try.calls
  next_eq : r.2.dnsNext = ais.drop k
  lookup_eq : lookupOf r.2 = lookupOf c
  failed : ∀ t ∈ (tryAll sys n ((ais.take k).map AddrInfo.addr)).dropLast, t.Failed
  status_eq : r.1 = latestOr lastError (tryAll sys n ((ais.take k).map AddrInfo.addr))
  all_of_failed : isFailed r.1 = true → k = ais.length
  fd_eq : isFailed r.1 = false →
    r.2.originFd = latestFd (tryAll sys n ((ais.take k).map AddrInfo.addr))

theorem resolvedLoop_walked (sys : Sys) (n : ℕ) (lastError : Errno) (ais : List AddrInfo)
    (hstream : ∀ ai ∈ ais, ai.stream = true) (hnext : c.dnsNext = ais) :
    ∃ k, Walked sys n lastError ais c (resolvedLoop sys n lastError ais c) k := by
  induction ais generalizing n lastError c with
  | nil =>
    refine ⟨0, le_rfl, ?_, hnext, rfl, ?_, rfl, fun _ => rfl, ?_⟩
    · simp [resolvedLoop, tryAll]
    · simp [tryAll]
    · simp [resolvedLoop, isFailed]
  | cons ai rest ih =>
    obtain ⟨hres, htrace, hlookup, hnext', hfd⟩ :=
      registerOriginConnect_try (sys.attempt n) ai.addr { c with dnsNext := rest }
    have hstatus : Try.status ⟨ai.addr, sys.attempt n, none⟩ = outcome (sys.attempt n) := by
      unfold Try.status
      split
      next heq => rw [heq]; rfl
      next => rfl
    unfold resolvedLoop
    dsimp only
    rw [if_pos (hstream ai List.mem_cons_self)]
    split
    next e c₁ heq =>
      rw [heq] at hres htrace hlookup hnext'
      obtain ⟨k, hwalked⟩ := ih (n + 1) e
        (fun ai hmem => hstream ai (List.mem_cons_of_mem _ hmem)) hnext'
      have hfailed : Try.Failed ⟨ai.addr, sys.attempt n, none⟩ := ⟨e, hstatus.trans hres.symm⟩
      refine ⟨k + 1, Nat.succ_le_succ hwalked.le, ?_, hwalked.next_eq,
        hwalked.lookup_eq.trans hlookup, ?_, ?_, ?_, ?_⟩
      · rw [hwalked.trace_eq, htrace, List.append_assoc]
        rfl
      · intro t hmem
        rw [List.take_succ_cons, List.map_cons, tryAll] at hmem
        cases hts : tryAll sys (n + 1) ((rest.take k).map AddrInfo.addr) with
        | nil =>
          rw [hts] at hmem
          exact absurd hmem (by simp)
        | cons t' ts =>
          rw [hts, List.dropLast_cons_cons] at hmem
          rcases List.mem_cons.mp hmem with rfl | hmem
          · exact hfailed
          · exact hwalked.failed t (by rw [hts]; exact hmem)
      · rw [hwalked.status_eq, List.take_succ_cons, List.map_cons, tryAll]
        cases hts : tryAll sys (n + 1) ((rest.take k).map AddrInfo.addr) with
        | nil => exact hres.trans hstatus.symm
        | cons t' ts =>
          rw [latestOr_cons _ _ (List.cons_ne_nil _ _)]
          exact latestOr_of_ne_nil _ _ (List.cons_ne_nil _ _)
      · exact fun h => congrArg Nat.succ (hwalked.all_of_failed h)
      · intro h
        rw [hwalked.fd_eq h, List.take_succ_cons, List.map_cons, tryAll]
        cases hts : tryAll sys (n + 1) ((rest.take k).map AddrInfo.addr) with
        | nil =>
          have hst := hwalked.status_eq
          rw [hts] at hst
          rw [hst] at h
          exact absurd h (by simp [latestOr, isFailed])
        | cons t' ts => rw [latestFd_cons _ (List.cons_ne_nil _ _)]
    next status c₁ hne heq =>
      have hnot : isFailed (outcome (sys.attempt n)) = false := by
        rw [← hres, heq]
        cases status with
        | failed e => exact absurd rfl (hne e)
        | _ => rfl
      rw [heq] at hres htrace hlookup hnext' hfd
      refine ⟨1, Nat.succ_le_succ (Nat.zero_le _), ?_, hnext', hlookup, ?_, ?_, ?_, ?_⟩
      · simpa [tryAll] using htrace
      · simp [tryAll]
      · exact hres.trans hstatus.symm
      · intro h
        rw [show status = outcome (sys.attempt n) from hres, hnot] at h
        exact absurd h (by decide)
      · exact fun _ => hfd hnot

end Loop

section Records

variable {error : ℤ} {ais : List AddrInfo} {sys : Sys} {c k : Conn} {ts tries : List Try}
  {r : Status × Conn} {e : Errno} {n : ℕ}

/-- The attempts made over a list of addresses: in its order, one each, only the
last of them without a failure, and none left out when all have failed. -/
structure Record (error : ℤ) (ais : List AddrInfo) (tries : List Try) : Prop where
  le : tries.length ≤ ais.length
  in_order : tries.map Try.addr = (ais.take tries.length).map AddrInfo.addr
  failed : ∀ t ∈ tries.dropLast, t.Failed
  exhausted : isFailed (latest tries) = true → tries = [] ∨ tries.length = ais.length
  unresolved : error ≠ 0 → tries = []

theorem record_nil (error : ℤ) (ais : List AddrInfo) : Record error ais [] where
  le := Nat.zero_le _
  in_order := rfl
  failed := by simp
  exhausted := fun _ => Or.inl rfl
  unresolved := fun _ => rfl

/-- Attempts that have all failed, so that the next address is due. -/
structure AllFailed (ais : List AddrInfo) (ts : List Try) : Prop where
  le : ts.length ≤ ais.length
  in_order : ts.map Try.addr = (ais.take ts.length).map AddrInfo.addr
  failed : ∀ t ∈ ts, t.Failed

theorem allFailed_nil (ais : List AddrInfo) : AllFailed ais [] :=
  ⟨Nat.zero_le _, rfl, by simp⟩

theorem Record.settle_failed {t : Try} {e : Errno} (h : Record error ais (ts ++ [t]))
    (ht : t.status = .inProgress) :
    AllFailed ais (ts ++ [t.settle (.failed e)]) where
  le := by simpa using h.le
  in_order := by simpa using h.in_order
  failed := by
    intro t' hmem
    rcases List.mem_append.mp hmem with hmem | hmem
    · exact h.failed t' (by simpa using hmem)
    · rw [List.mem_singleton.mp hmem]
      exact ⟨e, settle_status ht⟩

theorem Record.settle_ok {t : Try} (h : Record error ais (ts ++ [t]))
    (ht : t.status = .inProgress) : Record error ais (ts ++ [t.settle .ok]) where
  le := by simpa using h.le
  in_order := by simpa using h.in_order
  failed := by simpa using h.failed
  exhausted := by
    intro hfailed
    rw [latest_snoc, settle_status ht] at hfailed
    exact absurd hfailed (by decide)
  unresolved := fun herror => absurd (h.unresolved herror) (by simp)

/-- The attempts of the loop continue those before it. -/
theorem Walked.record (h : Walked sys 0 e (ais.drop ts.length) k r n) (hts : AllFailed ais ts)
    (hlast : n = 0 → latest ts = .failed e) (herror : error = 0) :
    Record error ais
        (ts ++ tryAll sys 0 (((ais.drop ts.length).take n).map AddrInfo.addr)) ∧
      latest (ts ++ tryAll sys 0 (((ais.drop ts.length).take n).map AddrInfo.addr)) = r.1 := by
  have hle := h.le
  rw [List.length_drop] at hle
  have hlen : (tryAll sys 0 (((ais.drop ts.length).take n).map AddrInfo.addr)).length = n := by
    rw [tryAll_length, List.length_map, List.length_take, List.length_drop]
    omega
  have hlatest : latest (ts ++ tryAll sys 0 (((ais.drop ts.length).take n).map AddrInfo.addr)) =
      r.1 := by
    rw [h.status_eq]
    by_cases hn : n = 0
    · subst hn
      rw [List.take_zero, List.map_nil, tryAll, List.append_nil, hlast rfl]
      rfl
    · have hne : tryAll sys 0 (((ais.drop ts.length).take n).map AddrInfo.addr) ≠ [] := by
        intro hnil
        rw [hnil] at hlen
        exact hn hlen.symm
      rw [latest, latestOr_append _ _ hne]
      exact latestOr_of_ne_nil _ _ hne
  refine ⟨⟨?_, ?_, ?_, ?_, fun hne => absurd herror hne⟩, hlatest⟩
  · rw [List.length_append, hlen]
    have htsle := hts.le
    omega
  · rw [List.map_append, tryAll_addrs, hts.in_order, ← List.map_append, List.length_append, hlen,
      List.take_add]
  · intro t hmem
    by_cases hn : tryAll sys 0 (((ais.drop ts.length).take n).map AddrInfo.addr) = []
    · rw [hn, List.append_nil] at hmem
      exact hts.failed t (List.dropLast_subset ts hmem)
    · rw [List.dropLast_append_of_ne_nil hn] at hmem
      rcases List.mem_append.mp hmem with hmem | hmem
      · exact hts.failed t hmem
      · exact h.failed t hmem
  · intro hfailed
    rw [hlatest] at hfailed
    have hall := h.all_of_failed hfailed
    rw [List.length_drop] at hall
    right
    rw [List.length_append, hlen, hall]
    have htsle := hts.le
    omega

/-- A try that has not failed has a socket. -/
theorem Try.fd_isSome {t : Try} (h : isFailed t.status = false) : t.fd.isSome := by
  obtain ⟨addr, ⟨socket, nio, connect, register⟩, late⟩ := t
  cases socket with
  | ok fd => rfl
  | error e => exact absurd h (by simp [Try.status, outcome, isFailed])

theorem latestFd_isSome (h : isFailed (latest ts) = false) : (latestFd ts).isSome := by
  unfold latest latestOr latestFd at *
  cases hlast : ts.getLast? with
  | none =>
    rw [hlast] at h
    exact absurd h (by decide)
  | some t =>
    rw [hlast] at h
    exact Try.fd_isSome h

/-- Where no attempt is under way, every attempt is settled. -/
theorem Record.settled (h : Record error ais tries) (hlatest : latest tries ≠ .inProgress) :
    ∀ t ∈ tries, t.status ≠ .inProgress := by
  rcases List.eq_nil_or_concat' tries with rfl | ⟨ts, t, rfl⟩
  · simp
  · intro t' hmem
    rcases List.mem_append.mp hmem with hmem | hmem
    · exact (h.failed t' (by simpa using hmem)).ne
    · rw [List.mem_singleton.mp hmem, ← latest_snoc ts t]
      exact hlatest

/-- The reply that the attempts call for. -/
def answer (tries : List Try) : Option UInt8 :=
  match latest tries with
  | .inProgress => none
  | status => some (connectReplyFromErrno status)

theorem answer_of_ne (h : latest tries ≠ .inProgress) :
    answer tries = some (connectReplyFromErrno (latest tries)) := by
  unfold answer
  split
  next heq => exact absurd heq h
  next => rfl

theorem Record.in_list (h : Record error ais tries) :
    tries.map Try.addr <+: ais.map AddrInfo.addr := by
  rw [h.in_order, List.map_take]
  exact List.take_prefix _ _

theorem latest_failed (hall : ∀ t ∈ tries, t.Failed) : isFailed (latest tries) = true := by
  rcases List.eq_nil_or_concat' tries with rfl | ⟨ts, t, rfl⟩
  · rfl
  · rw [latest_snoc]
    exact Try.failed_iff.mp (hall t (List.mem_append_right _ List.mem_cons_self))

theorem Record.all (h : Record error ais tries) (hne : tries ≠ [])
    (hall : ∀ t ∈ tries, t.Failed) : tries.map Try.addr = ais.map AddrInfo.addr := by
  rw [h.in_order, (h.exhausted (latest_failed hall)).resolve_left hne, List.take_length]

theorem Record.succeeds_iff (h : Record error ais tries) :
    answer tries = some SOCKS5_REPLY_SUCCEEDED ↔ ∃ t ∈ tries, t.status = .ok := by
  have hanswer : answer tries = some SOCKS5_REPLY_SUCCEEDED ↔ latest tries = .ok := by
    rw [← connectReplyFromErrno_eq_succeeded]
    unfold answer
    split
    next heq =>
      rw [heq]
      simp [connectReplyFromErrno, SOCKS5_REPLY_GENERAL_FAILURE, SOCKS5_REPLY_SUCCEEDED]
    next => rw [Option.some.injEq]
  rw [hanswer]
  rcases List.eq_nil_or_concat' tries with rfl | ⟨ts, t, rfl⟩
  · simp [latest, latestOr]
  · rw [latest_snoc]
    constructor
    · exact fun hok => ⟨t, List.mem_append_right _ List.mem_cons_self, hok⟩
    · rintro ⟨t', hmem, hok⟩
      rcases List.mem_append.mp hmem with hmem | hmem
      · obtain ⟨e, he⟩ := h.failed t' (by simpa using hmem)
        exact absurd (he.symm.trans hok) (by simp)
      · rw [← List.mem_singleton.mp hmem]
        exact hok

theorem Record.unresolved_answer (h : Record error ais tries) (herror : error ≠ 0) :
    tries = [] ∧ answer tries = some SOCKS5_REPLY_HOST_UNREACHABLE := by
  have hnil := h.unresolved herror
  refine ⟨hnil, ?_⟩
  rw [hnil]
  rfl

end Records

end SocksProxy.Attempts
