import SocksProxy.Connect
import SocksProxy.Runs

/-!
socks5.c and socks5nio.c: the callbacks of the negotiation, the relay, and the
event handlers the selector calls. The handlers of one connection are the
labels of its transition system; an event is enabled when the selector would
dispatch it.
-/
namespace SocksProxy.Connection

open ByteBuffer Hello Auth Request UserTable Kernel Stm ConnState Connect Runs

section Negotiation

def onHelloMethod (selected method : UInt8) : UInt8 :=
  if SOCKS_HELLO_USERNAME_PASSWORD = method then method else selected

def helloReadInit (c : Conn) : Conn :=
  { c with hello := helloParserInit { c.hello with data := SOCKS_HELLO_NO_ACCEPTABLE_METHODS } }

def helloRead (c : Conn) : Socks5State × Conn :=
  let (b, p, error) := helloConsume (some onHelloMethod) c.readBuffer c.hello
  let c := { c with readBuffer := b, hello := p }
  if error then (.error, c)
  else if helloIsDone p.state = false then (.helloRead, c)
  else match helloMarshall c.writeBuffer c.hello.data with
    | none => (.error, c)
    | some b => (.helloWrite, { c with writeBuffer := b })

def helloWrite (c : Conn) : Socks5State × Conn :=
  if bufferCanRead c.writeBuffer then (.helloWrite, c)
  else if c.hello.data = SOCKS_HELLO_NO_ACCEPTABLE_METHODS then (.error, c)
  else (.authRead, c)

def authReadInit (c : Conn) : Conn :=
  { c with authStatus := AUTH_STATUS_FAILURE, auth := authParserInit c.auth }

def credentialsMatch (c : Conn) : Bool × Conn :=
  let user := cString c.auth.uname.toList
  let pass := cString c.auth.passwd.toList
  (userTableLookup c.users user pass, c.log (.lookup c.users user pass))

def authRead (c : Conn) : Socks5State × Conn :=
  let (b, p, error) := authConsume c.readBuffer c.auth
  let c := { c with readBuffer := b, auth := p }
  if error then (.error, c)
  else if authIsDone p.state = false then (.authRead, c)
  else
    let (found, c) := credentialsMatch c
    let c := { c with authStatus := if found then AUTH_STATUS_SUCCESS else AUTH_STATUS_FAILURE }
    match authMarshall c.writeBuffer c.authStatus with
    | none => (.error, c)
    | some b => (.authWrite, { c with writeBuffer := b })

def authWrite (c : Conn) : Socks5State × Conn :=
  if bufferCanRead c.writeBuffer then (.authWrite, c)
  else if c.authStatus = AUTH_STATUS_SUCCESS then (.requestRead, c)
  else (.error, c)

def requestReadInit (c : Conn) : Conn :=
  { c with
    requestReply := SOCKS5_REPLY_GENERAL_FAILURE, request := requestParserInit c.request }

def requestRead (sys : Sys) (c : Conn) : Socks5State × Conn :=
  let (b, p, error) := requestConsume c.readBuffer c.request
  let c := { c with readBuffer := b, request := p }
  if error then
    let reply :=
      if p.state = .requestErrorUnsupportedAtyp then SOCKS5_REPLY_ADDRESS_TYPE_NOT_SUPPORTED
      else SOCKS5_REPLY_GENERAL_FAILURE
    connectMarshallReply sys { c with requestReply := reply }
  else if requestIsDone p.state = false then (.requestRead, c)
  else if p.command ≠ SOCKS5_CMD_CONNECT then
    connectMarshallReply sys { c with requestReply := SOCKS5_REPLY_COMMAND_NOT_SUPPORTED }
  else match connectToOrigin sys c with
    | (.inProgress, c) => (.connecting, c)
    | (status, c) =>
      connectMarshallReply sys { c with requestReply := connectReplyFromErrno status }

end Negotiation

section Relay

/-- The buffer that is filled from a side; the relay empties it to the other. -/
def inbound (c : Conn) : Side → Buffer
  | .client => c.readBuffer
  | .origin => c.writeBuffer

def setInbound (c : Conn) (side : Side) (b : Buffer) : Conn :=
  match side with
  | .client => { c with readBuffer := b }
  | .origin => { c with writeBuffer := b }

def other : Side → Side
  | .client => .origin
  | .origin => .client

def eof (c : Conn) : Side → Bool
  | .client => c.clientEof
  | .origin => c.originEof

def setEof (c : Conn) (side : Side) : Conn :=
  match side with
  | .client => { c with clientEof := true }
  | .origin => { c with originEof := true }

def fdOf (c : Conn) : Side → Option ℕ
  | .client => c.clientFd
  | .origin => c.originFd

def writeShutdown (c : Conn) : Side → Bool
  | .client => c.clientWriteShutdown
  | .origin => c.originWriteShutdown

/-- relay_shutdown_write_side on the socket and the flag of one side. -/
def relayShutdownWriteSide (c : Conn) (side : Side) : Conn :=
  if writeShutdown c side || (fdOf c side).isNone then c
  else match side with
    | .client => { c with clientWriteShutdown := true }.log (.shutdown .client)
    | .origin => { c with originWriteShutdown := true }.log (.shutdown .origin)

def relayShouldClose (c : Conn) : Bool × Conn :=
  let clientToOriginDrained := !bufferCanRead c.readBuffer
  let originToClientDrained := !bufferCanRead c.writeBuffer
  let c := if c.clientEof && clientToOriginDrained then relayShutdownWriteSide c .origin else c
  let c := if c.originEof && originToClientDrained then relayShutdownWriteSide c .client else c
  (c.clientEof && c.originEof && clientToOriginDrained && originToClientDrained, c)

def relayUpdateInterests (c : Conn) : Conn :=
  let clientInterest : FdInterest :=
    { read := !c.clientEof && bufferCanWrite c.readBuffer, write := bufferCanRead c.writeBuffer }
  let originInterest : FdInterest :=
    { read := !c.originEof && bufferCanWrite c.writeBuffer, write := bufferCanRead c.readBuffer }
  selectorSetInterest (selectorSetInterest c .client clientInterest) .origin originInterest

def startRelay (c : Conn) : Socks5State × Conn :=
  let c := { c with
    relayStarted := true, clientEof := false, originEof := false
    clientWriteShutdown := false, originWriteShutdown := false
    readBuffer := bufferReset c.readBuffer, writeBuffer := bufferReset c.writeBuffer }
  (.relay, relayUpdateInterests (c.log .startRelay))

/-- relay_flush of the buffer filled from `source` to the other side; `none` is
a fatal write error. -/
def relayFlush (sys : Sys) (source : Side) (c : Conn) : Bool × Conn :=
  let b := inbound c source
  if (fdOf c (other source)).isNone || bufferCanRead b = false then (true, c)
  else
    let c := c.log (.write (other source) (bufferReadPtr b) sys.write)
    match sysWrite (bufferReadPtr b).length sys.write with
    | .ok n =>
      if 0 < n.val then
        (true, setInbound c source (bufferReadAdv b n.val (by
          rw [Int.toNat_natCast]
          exact n.property)))
      else (true, c)
    | .error .again => (true, c)
    | .error .fail => (false, c)

/-- What the relay handlers do after their I/O. -/
def relayFinish (c : Conn) : Socks5Action × Conn :=
  match relayShouldClose c with
  | (true, c) => (.close, c)
  | (false, c) => (.none, relayUpdateInterests c)

/-- Reads from one side and flushes to the other. -/
def relayRead (sys : Sys) (side : Side) (c : Conn) : Socks5Action × Conn :=
  let b := inbound c side
  let c := c.log (.read side (bufferWritePtr b) sys.read)
  match sysRead (bufferWritePtr b) sys.read with
  | .ok l =>
    if l.val ≠ [] then
      match relayFlush sys side (setInbound c side (bufferPut b l.val l.property)) with
      | (false, c) => (.close, c)
      | (true, c) => relayFinish c
    else relayFinish (setEof c side)
  | .error .again => relayFinish c
  | .error .fail => (.close, c)

/-- Flushes to `side` what was read from the other one. -/
def relayWrite (sys : Sys) (side : Side) (c : Conn) : Socks5Action × Conn :=
  match relayFlush sys (other side) c with
  | (false, c) => (.close, c)
  | (true, c) => relayFinish c

def socks5RelayClientRead (sys : Sys) (c : Conn) : Socks5Action × Conn := relayRead sys .client c

def socks5RelayClientWrite (sys : Sys) (c : Conn) : Socks5Action × Conn :=
  relayWrite sys .client c

/-- The origin handlers close the connection themselves. -/
def closeOn : Socks5Action × Conn → Conn
  | (.close, c) => socks5ConnectionClose c
  | (_, c) => c

def originRead (sys : Sys) (c : Conn) : Conn := closeOn (relayRead sys .origin c)

def originWrite (sys : Sys) (c : Conn) : Conn :=
  if c.relayStarted = false then originConnectWriteHandler sys c
  else closeOn (relayWrite sys .origin c)

/-- The destination that request_write prints. -/
def requestDestination (p : RequestParser) : Destination :=
  if p.atyp = SOCKS5_ATYP_DOMAINNAME then .domain (cString (requestHost p))
  else if p.atyp = SOCKS5_ATYP_IPV4 then .inet (p.address.toList.take 4)
  else if p.atyp = SOCKS5_ATYP_IPV6 then .inet6 (p.address.toList.take 16)
  else .unknown

/-- The log entry, and the switch to relay on success. -/
def requestWrite (c : Conn) : Socks5State × Conn :=
  if bufferCanRead c.writeBuffer then (.requestWrite, c)
  else if c.requestReply ≠ SOCKS5_REPLY_SUCCEEDED then (.done, c)
  else
    startRelay (c.log (.accessLogAdd (cString c.auth.uname.toList) (requestDestination c.request)
      (requestPort c.request)))

end Relay

section Handlers

/-- The table of states. -/
def socks5States (sys : Sys) : Socks5State → StateDefinition Socks5State Conn
  | .helloRead => { onArrival := some helloReadInit, onReadReady := some helloRead }
  | .helloWrite => { onWriteReady := some helloWrite }
  | .authRead => { onArrival := some authReadInit, onReadReady := some authRead }
  | .authWrite => { onWriteReady := some authWrite }
  | .requestRead =>
    { onArrival := some requestReadInit, onReadReady := some (requestRead sys) }
  | .connecting => {}
  | .requestWrite => { onWriteReady := some requestWrite }
  | .relay => {}
  | .done => {}
  | .error => {}

def stm (sys : Sys) : StateMachine Socks5State Conn :=
  { initial := .helloRead, states := socks5States sys }

/-- The end of socks5_handle_read and socks5_handle_write. -/
def actionAfter : Socks5State × Conn → Socks5Action × Conn
  | (state, c) =>
    let c := { c with current := some state }
    if state = .error ∨ state = .done then (.close, c)
    else if state = .connecting then (.noop, c)
    else if state = .relay then (.none, c)
    else if bufferCanRead c.writeBuffer then (.write, c)
    else (.read, c)

def socks5HandleRead (sys : Sys) (c : Conn) : Option (Socks5Action × Conn) :=
  (stmHandlerRead (stm sys) c.current c).map actionAfter

def socks5HandleWrite (sys : Sys) (c : Conn) : Option (Socks5Action × Conn) :=
  (stmHandlerWrite (stm sys) c.current c).map actionAfter

def socks5HandleBlockDone (sys : Sys) (c : Conn) : Socks5Action × Conn :=
  match connectToOrigin sys { c with dnsPending := false } with
  | (.inProgress, c) => (.noop, { c with current := some .connecting })
  | (status, c) =>
    match connectMarshallReply sys { c with requestReply := connectReplyFromErrno status } with
    | (.error, c) => (.close, { c with current := some .error })
    | (_, c) => (.write, { c with current := some .requestWrite })

def socksv5ApplyAction : Socks5Action × Conn → Conn
  | (.none, c) => c
  | (.noop, c) => selectorSetInterest c .client OP_NOOP
  | (.read, c) => selectorSetInterest c .client OP_READ
  | (.write, c) => selectorSetInterest c .client OP_WRITE
  | (.close, c) => socks5ConnectionClose c

/-- `none` is `abort()`. -/
def socksv5Read (sys : Sys) (c : Conn) : Option Conn :=
  if c.relayStarted then some (socksv5ApplyAction (socks5RelayClientRead sys c))
  else
    let b := c.readBuffer
    let c := c.log (.read .client (bufferWritePtr b) sys.read)
    match sysRead (bufferWritePtr b) sys.read with
    | .ok l =>
      if l.val = [] then some (socks5ConnectionClose c)
      else
        (socks5HandleRead sys { c with readBuffer := bufferPut b l.val l.property }).map
          socksv5ApplyAction
    | .error .again => some (selectorSetInterest c .client OP_READ)
    | .error .fail => some (socks5ConnectionClose c)

def socksv5Write (sys : Sys) (c : Conn) : Option Conn :=
  if c.relayStarted then some (socksv5ApplyAction (socks5RelayClientWrite sys c))
  else
    let b := c.writeBuffer
    let c := c.log (.write .client (bufferReadPtr b) sys.write)
    match sysWrite (bufferReadPtr b).length sys.write with
    | .ok n =>
      if n.val = 0 then some (socks5ConnectionClose c)
      else
        let c := { c with writeBuffer := bufferReadAdv b n.val (by
          rw [Int.toNat_natCast]
          exact n.property) }
        if bufferCanRead c.writeBuffer then some (selectorSetInterest c .client OP_WRITE)
        else (socks5HandleWrite sys c).map socksv5ApplyAction
    | .error .again => some (selectorSetInterest c .client OP_WRITE)
    | .error .fail => some (socks5ConnectionClose c)

def socksv5BlockDone (sys : Sys) (c : Conn) : Conn :=
  socksv5ApplyAction (socks5HandleBlockDone sys c)

end Handlers

section System

/-- What can happen to a connection: its handlers run, the kernel finishes a
connect(), a worker finishes a lookup (`queued` when the notification could be
allocated), the user table changes, the server closes the connection. -/
inductive Event
  | clientRead (sys : Sys)
  | clientWrite (sys : Sys)
  | originRead (sys : Sys)
  | originWrite (sys : Sys)
  | blockDone (sys : Sys)
  | connectFinished (outcome : Option Errno)
  | dnsFinished (error : ℤ) (result : List AddrInfo) (queued : Bool)
  | addUser (name pass : List UInt8)
  | removeUser (name : List UInt8)
  | forceClose

def armed (i : Option FdInterest) (op : FdInterest → Bool) : Prop := ∃ j, i = some j ∧ op j = true

/-- The selector dispatches only what is armed, and only on a used entry. -/
def Enabled (c : Conn) : Event → Prop
  | .clientRead _ => armed c.clientItem FdInterest.read
  | .clientWrite _ => armed c.clientItem FdInterest.write
  | .originRead _ => armed c.originItem FdInterest.read
  | .originWrite _ => armed c.originItem FdInterest.write
  | .blockDone _ => c.dnsJob = .queued ∧ c.clientItem.isSome
  | .connectFinished _ => c.originSock = .inProgress
  | .dnsFinished _ _ _ => c.dnsJob = .resolving
  | .addUser _ _ => True
  | .removeUser _ => True
  | .forceClose => True

/-- The critical section of dns_worker. -/
def dnsWorkerStore (error : ℤ) (result : List AddrInfo) (queued : Bool) (c : Conn) : Conn :=
  if c.cancelled then { c with dnsPending := false, dnsJob := .idle }
  else
    { c with
      dnsPending := false, dnsError := error, dnsResult := result, dnsNext := result
      dnsJob := if queued then .queued else .idle }

def connectStatus : Option Errno → Status
  | some e => .failed e
  | none => .ok

/-- `none` is `abort()`. -/
def handle (c : Conn) : Event → Option Conn
  | .clientRead sys => socksv5Read sys c
  | .clientWrite sys => socksv5Write sys c
  | .originRead sys => some (originRead sys c)
  | .originWrite sys => some (originWrite sys c)
  | .blockDone sys => some (socksv5BlockDone sys { c with dnsJob := .idle })
  | .connectFinished outcome => some { c with originSock := connectStatus outcome }
  | .dnsFinished error result queued => some (dnsWorkerStore error result queued c)
  | .addUser name pass => some { c with users := (userTableAdd c.users name pass).2 }
  | .removeUser name => some { c with users := (userTableRemove c.users name).2 }
  | .forceClose => some (socks5ConnectionClose c)

def Step (c : Conn) (e : Event) (c' : Conn) : Prop := Enabled c e ∧ handle c e = some c'

instance (i : Option FdInterest) (op : FdInterest → Bool) : Decidable (armed i op) :=
  decidable_of_iff (i.any op = true) (by cases i <;> simp [armed])

instance (c : Conn) : (e : Event) → Decidable (Enabled c e)
  | .clientRead _ => inferInstanceAs (Decidable (armed c.clientItem FdInterest.read))
  | .clientWrite _ => inferInstanceAs (Decidable (armed c.clientItem FdInterest.write))
  | .originRead _ => inferInstanceAs (Decidable (armed c.originItem FdInterest.read))
  | .originWrite _ => inferInstanceAs (Decidable (armed c.originItem FdInterest.write))
  | .blockDone _ => inferInstanceAs (Decidable (c.dnsJob = .queued ∧ c.clientItem.isSome))
  | .connectFinished _ => inferInstanceAs (Decidable (c.originSock = .inProgress))
  | .dnsFinished _ _ _ => inferInstanceAs (Decidable (c.dnsJob = .resolving))
  | .addUser _ _ => .isTrue trivial
  | .removeUser _ => .isTrue trivial
  | .forceClose => .isTrue trivial

/-- The step as a partial function, to replay a list of events. -/
def dispatch (c : Conn) (e : Event) : Option Conn := if Enabled c e then handle c e else none

theorem step_of_dispatch {c c' : Conn} {e : Event} (h : dispatch c e = some c') :
    Step c e c' := by
  unfold dispatch at h
  split at h
  next hen => exact ⟨hen, h⟩
  next => exact absurd h (by simp)

def replay (c : Conn) (es : List Event) : Option Conn := es.foldlM dispatch c

theorem replay_run {c c' : Conn} {es : List Event} (h : replay c es = some c') :
    Run Step c es c' := Run.of_foldlM step_of_dispatch h

end System

end SocksProxy.Connection
