import SocksProxy.Kernel
import SocksProxy.Stm

/-!
The state of one connection: `struct socks5`, the selector entries of its two
sockets, the progress of its DNS lookup, the user table it shares with everybody
else, and the calls it has made so far. `Option` stands for a descriptor that
may be -1 and for a selector entry that may be unused.
-/
namespace SocksProxy.ConnState

open ByteBuffer Hello Auth Request UserTable Kernel Stm

def SOCKS_HELLO_USERNAME_PASSWORD : UInt8 := 0x02
def SOCKS_HELLO_NO_ACCEPTABLE_METHODS : UInt8 := 0xFF
def AUTH_STATUS_SUCCESS : UInt8 := 0x00
def AUTH_STATUS_FAILURE : UInt8 := 0x01

/-- sizeof of raw_read_buffer and raw_write_buffer. -/
def RAW_BUFFER_SIZE : ℕ := 4096

/-- `socks5_state`. -/
inductive Socks5State
  | helloRead
  | helloWrite
  | authRead
  | authWrite
  | requestRead
  | connecting
  | requestWrite
  | relay
  | done
  | error
  deriving DecidableEq

/-- `socks5_action`. -/
inductive Socks5Action
  | none
  | noop
  | read
  | write
  | close
  deriving DecidableEq

/-- `fd_interest`, a set of OP_READ and OP_WRITE. -/
structure FdInterest where
  read : Bool
  write : Bool
  deriving DecidableEq

def OP_NOOP : FdInterest := { read := false, write := false }
def OP_READ : FdInterest := { read := true, write := false }
def OP_WRITE : FdInterest := { read := false, write := true }

/-- `struct socks5`. `current` is stm.current, `hello.data` is selected_method;
an empty `dnsResult` or `dnsNext` is the NULL pointer. -/
structure Socks5 where
  current : Option Socks5State
  clientFd : Option ℕ
  originFd : Option ℕ
  dnsError : ℤ
  dnsResult : List AddrInfo
  dnsNext : List AddrInfo
  readBuffer : Buffer
  writeBuffer : Buffer
  hello : HelloParser UInt8
  auth : AuthParser
  request : RequestParser
  authStatus : UInt8
  requestReply : UInt8
  closing : Bool
  clientRegistered : Bool
  originRegistered : Bool
  relayStarted : Bool
  clientEof : Bool
  originEof : Bool
  clientWriteShutdown : Bool
  originWriteShutdown : Bool
  dnsPending : Bool
  cancelled : Bool

/-- A lookup is with a worker, finished and queued for the selector, or neither. -/
inductive DnsJob
  | idle
  | resolving
  | queued
  deriving DecidableEq

/-- A connection and what surrounds it. `originSock` is what the kernel knows
of the connect() on the origin socket. -/
structure Conn extends Socks5 where
  clientItem : Option FdInterest
  originItem : Option FdInterest
  originSock : Status
  dnsJob : DnsJob
  users : Table
  trace : List Call

/-- socks5_init and socks5_set_client_fd, then the registration of
socksv5_passive_accept. -/
def socks5Init (clientFd : ℕ) (users : Table) : Conn where
  current := Option.none
  clientFd := some clientFd
  originFd := Option.none
  dnsError := 0
  dnsResult := []
  dnsNext := []
  readBuffer := bufferInit RAW_BUFFER_SIZE
  writeBuffer := bufferInit RAW_BUFFER_SIZE
  hello := { data := 0, state := .helloVersion, remaining := 0 }
  auth := authParserZero
  request := requestParserZero
  authStatus := 0
  requestReply := 0
  closing := false
  clientRegistered := true
  originRegistered := false
  relayStarted := false
  clientEof := false
  originEof := false
  clientWriteShutdown := false
  originWriteShutdown := false
  dnsPending := false
  cancelled := false
  clientItem := some OP_READ
  originItem := Option.none
  originSock := .ok
  dnsJob := .idle
  users := users
  trace := []

def Conn.log (c : Conn) (call : Call) : Conn := { c with trace := c.trace ++ [call] }

/-- selector_set_interest; an unused entry stays unused. -/
def selectorSetInterest (c : Conn) (side : Side) (i : FdInterest) : Conn :=
  match side with
  | .client => { c with clientItem := c.clientItem.map fun _ => i }
  | .origin => { c with originItem := c.originItem.map fun _ => i }

def clientUnregister (c : Conn) : Conn :=
  if c.clientRegistered && c.clientFd.isSome then
    -- handle_close re-enters socks5_connection_close, which returns at `closing`
    { c with clientRegistered := false, clientItem := Option.none }
  else c

def clientClose (c : Conn) : Conn :=
  let c := clientUnregister c
  if c.clientFd.isSome then { c with clientFd := Option.none }.log (.close .client) else c

def originClose (c : Conn) : Conn :=
  let c :=
    if c.originRegistered && c.originFd.isSome then
      { c with originRegistered := false, originItem := Option.none }
    else c
  if c.originFd.isSome then { c with originFd := Option.none }.log (.close .origin) else c

/-- The reference is released where connections share a heap, not here. -/
def socks5ConnectionClose (c : Conn) : Conn :=
  if c.closing then c
  else originClose (clientClose { c with closing := true, cancelled := true })

end SocksProxy.ConnState
