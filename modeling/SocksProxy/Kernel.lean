import SocksProxy.Request
import SocksProxy.UserTable

/-!
What a connection sees of the outside: the kernel's answers to its system
calls, which are inputs of the model, and the calls themselves, which the model
records in the order they are made. The bytes that crossed a socket are a
function of that record.
-/
namespace SocksProxy.Kernel

open Request UserTable

/-- The two sockets of a connection. -/
inductive Side
  | client
  | origin
  deriving DecidableEq

/-- What a socket has to give; `data` is at least one byte. -/
inductive ReadResult
  | data (first : UInt8) (rest : List UInt8)
  | eof
  | again
  | fail
  deriving DecidableEq

/-- `accept n`: the socket takes up to `n` bytes. -/
inductive WriteResult
  | accept (n : ℕ)
  | again
  | fail
  deriving DecidableEq

/-- A negative count: `again` when is_retryable_io_error holds. -/
inductive IoError
  | again
  | fail
  deriving DecidableEq

/-- read(fd, ptr, count): never more than `count` bytes, and 0 for end of file
as well as for a `count` of 0. -/
def sysRead (count : ℕ) : ReadResult → Except IoError { l : List UInt8 // l.length ≤ count }
  | .data b rest => .ok ⟨(b :: rest).take count, List.length_take_le count _⟩
  | .eof => .ok ⟨[], Nat.zero_le count⟩
  | .again => .error .again
  | .fail => .error .fail

def sysWrite (count : ℕ) : WriteResult → Except IoError { n : ℕ // n ≤ count }
  | .accept n => .ok ⟨min n count, Nat.min_le_right n count⟩
  | .again => .error .again
  | .fail => .error .fail

/-- The errors that the model tells apart; EINPROGRESS is a `Status` of its own. -/
inductive Errno
  | ENETUNREACH
  | EHOSTUNREACH
  | ECONNREFUSED
  | ENOMEM
  | EAFNOSUPPORT
  | other (code : ℕ)
  deriving DecidableEq

/-- The `int` of the connect functions: 0, EINPROGRESS or another errno. -/
inductive Status
  | ok
  | inProgress
  | failed (e : Errno)
  deriving DecidableEq

/-- `struct addrinfo`; `stream` is ai_socktype == SOCK_STREAM. -/
structure AddrInfo where
  stream : Bool
  addr : SockAddr
  deriving DecidableEq

/-- The answers to the calls of one register_origin_connect. -/
structure Attempt where
  socket : Except Errno ℕ
  setNio : Option Errno
  connect : Status
  register : Bool

/-- How dns_resolve_start fares. -/
inductive Spawn
  | noMemory
  | refused (e : Errno)
  | started
  deriving DecidableEq

/-- The kernel's answers during one event handler. `attempt n` answers the
n-th connection attempt of the handler. -/
structure Sys where
  read : ReadResult
  write : WriteResult
  getsockopt : Option Errno
  attempt : ℕ → Attempt
  getsockname : Option (SockAddr × ℕ)
  spawn : Spawn

/-- The address text of an access log entry, before it is printed. -/
inductive Destination
  | domain (name : List UInt8)
  | inet (addr : List UInt8)
  | inet6 (addr : List UInt8)
  | unknown
  deriving DecidableEq

/-- A call that leaves the connection, with its arguments. -/
inductive Call
  | read (side : Side) (count : ℕ) (r : ReadResult)
  | write (side : Side) (bytes : List UInt8) (w : WriteResult)
  | shutdown (side : Side)
  | close (side : Side)
  | lookup (users : Table) (name pass : List UInt8)
  | registerOriginConnect (addr : SockAddr)
  | dnsResolveStart (host : List UInt8) (port : ℕ)
  | accessLogAdd (name : List UInt8) (dest : Destination) (port : ℕ)
  | startRelay
  deriving DecidableEq

/-- The bytes a call read from `side`. -/
def Call.received (side : Side) : Call → List UInt8
  | .read s count (.data b rest) => if s = side then (b :: rest).take count else []
  | _ => []

/-- The bytes a call wrote to `side`. -/
def Call.sent (side : Side) : Call → List UInt8
  | .write s bytes (.accept n) => if s = side then bytes.take n else []
  | _ => []

def received (side : Side) (t : List Call) : List UInt8 := t.flatMap (Call.received side)

def sent (side : Side) (t : List Call) : List UInt8 := t.flatMap (Call.sent side)

@[simp] theorem received_nil (side : Side) : received side [] = [] := rfl

@[simp] theorem sent_nil (side : Side) : sent side [] = [] := rfl

@[simp] theorem received_cons (side : Side) (o : Call) (t : List Call) :
    received side (o :: t) = o.received side ++ received side t := List.flatMap_cons

@[simp] theorem sent_cons (side : Side) (o : Call) (t : List Call) :
    sent side (o :: t) = o.sent side ++ sent side t := List.flatMap_cons

@[simp] theorem received_append (side : Side) (t u : List Call) :
    received side (t ++ u) = received side t ++ received side u := List.flatMap_append

@[simp] theorem sent_append (side : Side) (t u : List Call) :
    sent side (t ++ u) = sent side t ++ sent side u := List.flatMap_append

end SocksProxy.Kernel
