import SocksProxy.Connection

/-!
The negotiation as an abstract dialogue. A stage says which messages have been
read and what the answer to them is; `Fits` relates a stage to the connection
that is in it, `History` to the calls made so far. What the source keeps in
parsers, buffers, flags and interests is a function of the stage and of the
bytes that are still unread.
-/
namespace SocksProxy.Stages

open ByteBuffer ByteScan Hello Auth Request UserTable Kernel Stm ConnState Connect Connection

/-- The methods offered and the credentials sent. -/
structure Login where
  methods : List UInt8
  uname : List UInt8
  passwd : List UInt8

def Login.message (l : Login) : List UInt8 :=
  helloMessage l.methods ++ authMessage l.uname l.passwd

/-- The fields fit their length bytes and method 0x02 was offered. -/
structure Login.Valid (l : Login) : Prop where
  methods_le : l.methods.length ≤ 255
  uname_le : l.uname.length ≤ 255
  passwd_le : l.passwd.length ≤ 255
  offered : SOCKS_HELLO_USERNAME_PASSWORD ∈ l.methods

/-- The table has held the credentials of `l` when they were looked up. -/
def LookedUp (l : Login) (accepted : Bool) (t : List Call) : Prop :=
  ∃ users, .lookup users (cString l.uname) (cString l.passwd) ∈ t ∧
    userTableLookup users (cString l.uname) (cString l.passwd) = accepted

/-- Method 0x02 was offered and selected, and the credentials that were parsed
were found in the table. -/
structure Gate (l : Login) (t : List Call) : Prop where
  valid : l.Valid
  parsed : l.message <+: received .client t
  selected : [0x05, SOCKS_HELLO_USERNAME_PASSWORD] <+: sent .client t
  accepted : LookedUp l true t

/-- The calls that an authenticated client alone may cause. -/
def Privileged : Call → Prop
  | .registerOriginConnect _ => True
  | .dnsResolveStart _ _ => True
  | .accessLogAdd _ _ _ => True
  | .startRelay => True
  | _ => False

/-- The two calls made when the relay starts. -/
def Starts : Call → Prop
  | .accessLogAdd _ _ _ => True
  | .startRelay => True
  | _ => False

/-- How far the negotiation has come. `seen` is a part of the message being
read, `message` a complete or rejected request. -/
inductive Stage
  | hello (seen : List UInt8)
  | helloReply (methods : List UInt8)
  | auth (methods seen : List UInt8)
  | authReply (l : Login) (accepted : Bool)
  | request (l : Login) (seen : List UInt8)
  | connecting (l : Login) (atyp : UInt8) (address : List UInt8) (port : UInt8 × UInt8)
  | reply (l : Login) (message : List UInt8) (code : UInt8) (bind : Option (SockAddr × ℕ))

/-- The method the server selects. -/
def method (methods : List UInt8) : UInt8 :=
  if SOCKS_HELLO_USERNAME_PASSWORD ∈ methods then SOCKS_HELLO_USERNAME_PASSWORD
  else SOCKS_HELLO_NO_ACCEPTABLE_METHODS

def authStatusOf (accepted : Bool) : UInt8 :=
  if accepted then AUTH_STATUS_SUCCESS else AUTH_STATUS_FAILURE

namespace Stage

def state : Stage → Socks5State
  | hello _ => .helloRead
  | helloReply _ => .helloWrite
  | auth _ _ => .authRead
  | authReply _ _ => .authWrite
  | request _ _ => .requestRead
  | connecting _ _ _ _ => .connecting
  | reply _ _ _ _ => .requestWrite

def interest : Stage → FdInterest
  | hello _ => OP_READ
  | helloReply _ => OP_WRITE
  | auth _ _ => OP_READ
  | authReply _ _ => OP_WRITE
  | request _ _ => OP_READ
  | connecting _ _ _ _ => OP_NOOP
  | reply _ _ _ _ => OP_WRITE

/-- The client bytes that have been parsed. -/
def consumed : Stage → List UInt8
  | hello seen => seen
  | helloReply methods => helloMessage methods
  | auth methods seen => helloMessage methods ++ seen
  | authReply l _ => l.message
  | request l seen => l.message ++ seen
  | connecting l atyp address port =>
    l.message ++ requestMessage SOCKS5_CMD_CONNECT atyp address port
  | reply l message _ _ => l.message ++ message

/-- Everything the server has said or is about to say. -/
def output : Stage → List UInt8
  | hello _ => []
  | helloReply methods => [0x05, method methods]
  | auth _ _ => [0x05, 0x02]
  | authReply _ accepted => [0x05, 0x02] ++ [0x01, authStatusOf accepted]
  | request _ _ => [0x05, 0x02] ++ [0x01, 0x00]
  | connecting _ _ _ _ => [0x05, 0x02] ++ [0x01, 0x00]
  | reply _ _ code bind => [0x05, 0x02] ++ [0x01, 0x00] ++ replyMessage code bind

/-- What the calls made so far say about a stage. -/
def Past (t : List Call) : Stage → Prop
  | hello _ => True
  | helloReply methods => methods.length ≤ 255
  | auth methods _ => methods.length ≤ 255 ∧ SOCKS_HELLO_USERNAME_PASSWORD ∈ methods
  | authReply l accepted => l.Valid ∧ LookedUp l accepted t
  | request l _ => Gate l t
  | connecting l _ _ _ => Gate l t
  | reply l _ _ _ => Gate l t

end Stage

/-- Nothing was read from the origin, or written to it. -/
def Untouched (t : List Call) : Prop := received .origin t = [] ∧ sent .origin t = []

theorem Untouched.append {t u : List Call} (h : Untouched t) (h' : Untouched u) :
    Untouched (t ++ u) := by
  rw [Untouched, received_append, sent_append, h.1, h.2, h'.1, h'.2]
  exact ⟨rfl, rfl⟩

/-- The calls of a negotiation that has reached stage `s`. -/
structure History (s : Stage) (t : List Call) : Prop where
  consumed_prefix : s.consumed <+: received .client t
  sent_prefix : sent .client t <+: s.output
  past : s.Past t
  gated : ∀ pre call post, t = pre ++ call :: post → Privileged call → ∃ l, Gate l pre
  unstarted : ∀ call ∈ t, ¬ Starts call
  untouched : Untouched t

def helloStart : HelloParser UInt8 :=
  { data := SOCKS_HELLO_NO_ACCEPTABLE_METHODS, state := .helloVersion, remaining := 0 }

def authStart : AuthParser := authParserInit authParserZero

def requestStart : RequestParser := requestParserInit requestParserZero

def helloSeen (seen : List UInt8) : HelloParser UInt8 :=
  feedAll (helloParserFeed (some onHelloMethod)) helloStart seen

def authSeen (seen : List UInt8) : AuthParser := feedAll authParserFeed authStart seen

def requestSeen (seen : List UInt8) : RequestParser :=
  feedAll requestParserFeed requestStart seen

abbrev HelloUnfinished (seen : List UInt8) : Prop :=
  Partial (helloParserFeed (some onHelloMethod)) (fun p => helloIsDone p.state) helloStart seen

abbrev AuthUnfinished (seen : List UInt8) : Prop :=
  Partial authParserFeed (fun p => authIsDone p.state) authStart seen

abbrev RequestUnfinished (seen : List UInt8) : Prop :=
  Partial requestParserFeed (fun p => requestIsDone p.state) requestStart seen

/-- There is no origin socket. -/
def NoOrigin (c : Conn) : Prop :=
  c.originFd = none ∧ c.originItem = none ∧ c.originRegistered = false

/-- The origin socket is open and registered with interest `i`. -/
def HasOrigin (i : FdInterest) (c : Conn) : Prop :=
  c.originFd.isSome ∧ c.originItem = some i ∧ c.originRegistered = true

/-- No lookup, no result of one, and no connect() was started. -/
def Undialed (c : Conn) : Prop :=
  c.dnsJob = .idle ∧ c.originSock = .ok ∧ c.dnsPending = false ∧ c.dnsError = 0 ∧
    c.dnsResult = [] ∧ c.dnsNext = []

/-- The parsers and results of the connection in each stage. -/
def Parsed (c : Conn) : Stage → Prop
  | .hello seen =>
    (c.current = none ∧ seen = [] ∨ c.current = some .helloRead ∧ c.hello = helloSeen seen) ∧
      HelloUnfinished seen ∧ bufferReadPtr c.readBuffer = [] ∧ c.auth = authParserZero ∧
      c.request = requestParserZero ∧ NoOrigin c ∧ Undialed c
  | .helloReply methods =>
    c.current = some .helloWrite ∧ c.hello.data = method methods ∧ c.auth = authParserZero ∧
      c.request = requestParserZero ∧ NoOrigin c ∧ Undialed c
  | .auth _ seen =>
    c.current = some .authRead ∧ c.auth = authSeen seen ∧ AuthUnfinished seen ∧
      (seen ≠ [] → bufferReadPtr c.readBuffer = []) ∧ c.request = requestParserZero ∧
      NoOrigin c ∧ Undialed c
  | .authReply l accepted =>
    c.current = some .authWrite ∧ c.authStatus = authStatusOf accepted ∧
      Holds c.auth.uname (l.uname ++ [0]) ∧ c.request = requestParserZero ∧ NoOrigin c ∧ Undialed c
  | .request l seen =>
    c.current = some .requestRead ∧ c.request = requestSeen seen ∧ RequestUnfinished seen ∧
      (seen ≠ [] → bufferReadPtr c.readBuffer = []) ∧
      Holds c.auth.uname (l.uname ++ [0]) ∧ NoOrigin c ∧ Undialed c ∧
      c.requestReply = SOCKS5_REPLY_GENERAL_FAILURE
  | .connecting l atyp address port =>
    c.current = some .connecting ∧ ValidAddress atyp address ∧
      Read SOCKS5_CMD_CONNECT atyp address port c.request ∧
      Holds c.auth.uname (l.uname ++ [0]) ∧
      (HasOrigin OP_WRITE c ∧ c.dnsJob = .idle ∨ NoOrigin c)
  | .reply l message code _ =>
    c.current = some .requestWrite ∧ c.requestReply = code ∧
      Holds c.auth.uname (l.uname ++ [0]) ∧ c.dnsJob = .idle ∧
      if code = SOCKS5_REPLY_SUCCEEDED then
        HasOrigin OP_NOOP c ∧ ∃ atyp address port, ValidAddress atyp address ∧
          message = requestMessage SOCKS5_CMD_CONNECT atyp address port ∧
          Read SOCKS5_CMD_CONNECT atyp address port c.request
      else NoOrigin c

/-- A buffer whose room is whole when nothing is readable. -/
structure Tidy (b : Buffer) : Prop where
  limit_eq : bufferLimit b = RAW_BUFFER_SIZE
  whole : bufferReadPtr b = [] → bufferWritePtr b = RAW_BUFFER_SIZE

theorem Tidy.put {b : Buffer} (h : Tidy b) (l : List UInt8) (hl : l.length ≤ bufferWritePtr b)
    (hne : l ≠ []) : Tidy (bufferPut b l hl) where
  limit_eq := (bufferLimit_put b l hl).trans h.limit_eq
  whole := by
    intro hnil
    rw [bufferReadPtr_put] at hnil
    exact absurd hnil (List.append_ne_nil_of_right_ne_nil _ hne)

theorem Tidy.rest {b b' : Buffer} {r : List UInt8} (h : Tidy b) (hrest : Rest b b' r) :
    Tidy b' where
  limit_eq := hrest.limit_eq.trans h.limit_eq
  whole := by
    intro hnil
    rw [hrest.room_eq, if_pos (hrest.contents_eq.symm.trans hnil)]
    exact h.limit_eq

/-- The connection is open, in negotiation, and in stage `s`. -/
structure Fits (s : Stage) (c : Conn) : Prop where
  closing_eq : c.closing = false
  cancelled_eq : c.cancelled = false
  relay_eq : c.relayStarted = false
  eof_eq : ∀ d, eof c d = false
  clientFd_isSome : c.clientFd.isSome
  clientRegistered_eq : c.clientRegistered = true
  clientItem_eq : c.clientItem = some s.interest
  readTidy : Tidy c.readBuffer
  writeTidy : Tidy c.writeBuffer
  received_eq : received .client c.trace = s.consumed ++ bufferReadPtr c.readBuffer
  sent_eq : sent .client c.trace ++ bufferReadPtr c.writeBuffer = s.output
  pending_iff : bufferReadPtr c.writeBuffer ≠ [] ↔ s.interest = OP_WRITE
  parsed : Parsed c s

section Growth

/-! Nothing a connection has done is undone by what it does next. -/

variable {s s' : Stage} {t u : List Call} {l : Login} {accepted : Bool}

theorem LookedUp.append (h : LookedUp l accepted t) (u : List Call) :
    LookedUp l accepted (t ++ u) := by
  obtain ⟨users, hmem, hres⟩ := h
  exact ⟨users, List.mem_append_left u hmem, hres⟩

theorem Gate.append (h : Gate l t) (u : List Call) : Gate l (t ++ u) where
  valid := h.valid
  parsed := by
    rw [received_append]
    exact h.parsed.trans (List.prefix_append _ _)
  selected := by
    rw [sent_append]
    exact h.selected.trans (List.prefix_append _ _)
  accepted := h.accepted.append u

theorem Stage.Past.append (h : s.Past t) (u : List Call) : s.Past (t ++ u) := by
  cases s with
  | hello seen => trivial
  | helloReply methods => exact h
  | auth methods seen => exact h
  | authReply l accepted => exact ⟨h.1, h.2.append u⟩
  | request l seen => exact Gate.append h u
  | connecting l atyp address port => exact Gate.append h u
  | reply l message code bind => exact Gate.append h u

/-- New calls keep the gate when the privileged ones among them have passed it. -/
theorem gated_append (h : ∀ pre call post, t = pre ++ call :: post → Privileged call →
      ∃ l, Gate l pre)
    (hu : ∀ call ∈ u, Privileged call → ∃ l, Gate l t) :
    ∀ pre call post, t ++ u = pre ++ call :: post → Privileged call → ∃ l, Gate l pre := by
  intro pre call post heq hcall
  rcases List.append_eq_append_iff.mp heq with ⟨w, rfl, hw⟩ | ⟨w, ht, hw⟩
  · have hmem : call ∈ u := by
      rw [hw]
      exact List.mem_append_right w List.mem_cons_self
    obtain ⟨l, hl⟩ := hu call hmem hcall
    exact ⟨l, hl.append w⟩
  · cases w with
    | nil =>
      have hmem : call ∈ u := by
        rw [List.nil_append] at hw
        rw [← hw]
        exact List.mem_cons_self
      obtain ⟨l, hl⟩ := hu call hmem hcall
      rw [ht, List.append_nil] at hl
      exact ⟨l, hl⟩
    | cons x w =>
      rw [List.cons_append, List.cons.injEq] at hw
      obtain ⟨rfl, -⟩ := hw
      exact h pre call w ht hcall

/-- The stage reached by the new calls `u` has a history if its connection fits. -/
theorem Fits.history {c c' : Conn} (hfits : Fits s' c') (h : History s c.trace)
    (htrace : c'.trace = c.trace ++ u) (hpast : s'.Past c'.trace)
    (hgate : ∀ call ∈ u, Privileged call → ∃ l, Gate l c.trace)
    (hstart : ∀ call ∈ u, ¬ Starts call) (horigin : Untouched u) : History s' c'.trace where
  consumed_prefix := by
    rw [hfits.received_eq]
    exact List.prefix_append _ _
  sent_prefix := by
    rw [← hfits.sent_eq]
    exact List.prefix_append _ _
  past := hpast
  gated := by
    rw [htrace]
    exact gated_append h.gated hgate
  unstarted := by
    rw [htrace]
    intro call hmem
    rcases List.mem_append.mp hmem with hmem | hmem
    · exact h.unstarted call hmem
    · exact hstart call hmem
  untouched := by
    rw [htrace]
    exact h.untouched.append horigin

end Growth

end SocksProxy.Stages
