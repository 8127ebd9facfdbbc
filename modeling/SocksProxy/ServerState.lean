import Mathlib.Logic.Function.Basic
import SocksProxy.ConnState
import SocksProxy.Ledgers
import SocksProxy.MonServer

/-!
The server as its threads see it: the heap, the selector's table, the kernel's
descriptors, the pool, the workers and the jobs they queue. Of a connection this
model keeps what decides who owns it; the bytes, and what the parsers make of
them, are inputs. The calls the main thread is in the middle of are a stack, so
that the workers can run between any two of them.
-/
namespace SocksProxy.ServerState

open Kernel Ledgers
open ConnState (Socks5State FdInterest OP_NOOP OP_READ OP_WRITE)
open MonServer (Metrics metricsInit metricsConnectionOpened metricsConnectionClosed metricsAddBytes)

/-- FD_SETSIZE. -/
def ITEMS_MAX_SIZE : ℕ := 1024

/-- fd_size after selector_new(1024). -/
def FD_SIZE : ℕ := 1025

/-- A lookup of the `serial`-th connection; `n` counts the workers ever started. -/
structure Lookup where
  serial : ℕ
  n : ℕ
  deriving DecidableEq

/-- An open socket of the kernel, and the connection it was opened for. -/
structure Socket where
  owner : Option ℕ
  side : Side
  n : ℕ
  deriving DecidableEq

/-- One registration in the selector, from selector_register to its handle_close. -/
structure Registration where
  owner : Option ℕ
  n : ℕ
  deriving DecidableEq

/-- The handler tables: socksv5_handler, origin_handler, and those of the
listeners and the monitoring connections. -/
inductive Handler
  | socksv5
  | origin
  | other
  deriving DecidableEq

/-- A used `struct item`; `data` is a pointer. -/
structure Item where
  handler : Handler
  interest : FdInterest
  data : Option ℕ
  registration : Registration
  deriving DecidableEq

/-- `struct socks5`. `serial` numbers the accepted clients, `dnsResult` the lists
that getaddrinfo returned; `released` says that the initial reference is gone. -/
structure Socks5 where
  serial : ℕ
  references : ℕ
  current : Socks5State
  clientFd : Option ℕ
  originFd : Option ℕ
  atyp : UInt8
  dnsError : ℤ
  dnsResult : Option ℕ
  dnsNext : List AddrInfo
  closing : Bool
  clientRegistered : Bool
  originRegistered : Bool
  relayStarted : Bool
  dnsPending : Bool
  cancelled : Bool
  released : Bool
  deriving DecidableEq

/-- socks5_init and socks5_set_client_fd. -/
def socks5Init (serial clientFd : ℕ) : Socks5 where
  serial := serial
  references := 1
  current := .helloRead
  clientFd := some clientFd
  originFd := none
  atyp := 0
  dnsError := 0
  dnsResult := none
  dnsNext := []
  closing := false
  clientRegistered := false
  originRegistered := false
  relayStarted := false
  dnsPending := false
  cancelled := false
  released := false

/-- `struct blocking_job`; its cleanup is release_block_data. -/
structure BlockingJob where
  fd : ℕ
  data : ℕ
  lookup : Lookup
  deriving DecidableEq

/-- Where a dns_worker is: in getaddrinfo; with dns_mutex before and after
selector_notify_block_done; before its socks5_release; before freeaddrinfo. -/
inductive WorkerState
  | resolving
  | notifying
  | unlocking (queued : Bool)
  | releasing (result : Option ℕ)
  | freeing (result : Option ℕ)
  | exited
  deriving DecidableEq

namespace WorkerState

/-- The worker has a reference of its own. -/
def holds : WorkerState → Bool
  | resolving => true
  | notifying => true
  | unlocking queued => !queued
  | releasing _ => true
  | freeing _ => false
  | exited => false

/-- The worker is inside the section of dns_mutex. -/
def locks : WorkerState → Bool
  | notifying => true
  | unlocking _ => true
  | _ => false

/-- The outcome of the lookup has not left the worker. -/
def flying : WorkerState → Bool
  | resolving => true
  | notifying => true
  | _ => false

/-- The list that the worker will pass to freeaddrinfo. -/
def result : WorkerState → Option ℕ
  | releasing r => r
  | freeing r => r
  | _ => none

end WorkerState

/-- A thread in dns_worker with its `struct dns_job`. -/
structure DnsWorker where
  socks : ℕ
  clientFd : ℕ
  lookup : Lookup
  state : WorkerState
  deriving DecidableEq

/-- What the main thread still has to do, innermost call first. The frames from
`notifications` on are loops; they are the bottom of the stack. -/
inductive Frame
  | connectionClose (a : ℕ)
  | cancel (a : ℕ)
  | clientClose (a : ℕ)
  | clientCloseFd (a fd : ℕ)
  | originClose (a : ℕ)
  | originCloseFd (a : ℕ)
  | release (a : ℕ)
  | clear (fd : ℕ) (data : Option ℕ)
  | resolveStart (a : ℕ)
  | resolveSpawn (a : ℕ)
  | resolveFailed (a : ℕ) (e : Errno)
  | originDrop (a : ℕ)
  | close (fd : ℕ)
  | notifications
  | cleanup
  | force
  | forceCheck (a : ℕ)
  | destroy (i : ℕ)
  | destroyJobs
  | ended
  deriving DecidableEq

/-- What was handed out and given back so far. `blockDone` pairs the connection
on which handle_block_done ran with the lookup it ran for; `added` and `removed`
count the changes of the pool; `writes` are the calls of write() in relay_flush that the
kernel has answered with a count, each with its descriptor. -/
structure Books where
  sockets : Ledger Socket
  registrations : Ledger Registration
  states : Ledger ℕ
  owners : Ledger ℕ
  results : Ledger ℕ
  blockDone : List (ℕ × Lookup)
  added : ℕ
  removed : ℕ
  writes : List (ℕ × ℕ)

/-- All that the kernel has taken from relay_flush. -/
def Books.written (b : Books) : ℕ := (b.writes.map Prod.snd).sum

/-- `taken` are the addresses that malloc gave to monitoring connections,
`accepted` counts the clients; `stack` is empty while the main thread waits. -/
structure Server where
  heap : ℕ → Option Socks5
  taken : ℕ → Bool
  items : ℕ → Option Item
  fds : ℕ → Option Socket
  pool : List ℕ
  poolSize : UInt64
  metrics : Metrics
  jobs : List BlockingJob
  workers : List DnsWorker
  stack : List Frame
  accepted : ℕ
  books : Books

def serverInit : Server where
  heap := fun _ => none
  taken := fun _ => false
  items := fun _ => none
  fds := fun _ => none
  pool := []
  poolSize := 0
  metrics := metricsInit
  jobs := []
  workers := []
  stack := []
  accepted := 0
  books :=
    { sockets := .empty, registrations := .empty, states := .empty, owners := .empty
      results := .empty, blockDone := [], added := 0, removed := 0, writes := [] }

/-- Why a step is not taken: the answers are none the kernel could give, or the
thread is blocked (`unreal`); a callback is missing in stm_handler_read or
stm_handler_write (`abort`); freed memory was used, a count of references below
one was dropped, or a descriptor was closed that is not open (`fault`). -/
inductive Halt
  | unreal
  | abort
  | fault
  deriving DecidableEq

/-- The kernel's answers to one register_origin_connect. -/
structure Dial where
  socket : Except Errno ℕ
  setNio : Option Errno
  connect : Status

/-- The answers that one step of the main thread may ask for; `fits` when
connect_marshall_reply finds room for the reply. -/
structure Answers where
  attempt : ℕ → Dial
  spawn : Spawn
  fits : Bool

namespace Server

variable (s : Server)

def set (a : ℕ) (o : Socks5) : Server := { s with heap := Function.update s.heap a (some o) }

def push (fs : List Frame) : Server := { s with stack := fs ++ s.stack }

def setItem (fd : ℕ) (it : Option Item) : Server :=
  { s with items := Function.update s.items fd it }

/-- A worker is inside the section of dns_mutex of `a`. -/
def locked (a : ℕ) : Bool := s.workers.any fun w => w.socks = a && w.state.locks

/-- handle_block_notifications holds resolution_mutex. -/
def draining : Bool := s.stack.contains .notifications

/-- selector_destroy is past the loop over the items. -/
def selectorGone : Bool := s.stack.contains .destroyJobs || s.stack.contains .ended

/-- The main thread uses `a`, of which it owns the initial reference. -/
def owned (a : ℕ) (k : Socks5 → Except Halt Server) : Except Halt Server :=
  match s.heap a with
  | some o => if o.released then .error .fault else k o
  | none => .error .fault

end Server

section Kernel

/-- accept() or socket() returned `fd`, which was not open. -/
def sysOpen (s : Server) (fd : ℕ) (owner : Option ℕ) (side : Side) : Server :=
  let sk : Socket := { owner := owner, side := side, n := s.books.sockets.issued.length }
  { s with
    fds := Function.update s.fds fd (some sk)
    books := { s.books with sockets := s.books.sockets.issue sk } }

def sysClose (s : Server) (fd : ℕ) : Except Halt Server :=
  match s.fds fd with
  | none => .error .fault
  | some sk => .ok { s with
      fds := Function.update s.fds fd none
      books := { s.books with sockets := s.books.sockets.settle sk } }

/-- write(fd, ptr, count). -/
def sysWriteTo (s : Server) (fd count : ℕ) (answer : WriteResult) : Except IoError ℕ × Server :=
  match sysWrite count answer with
  | .ok n => (.ok n, { s with books := { s.books with writes := (fd, n) :: s.books.writes } })
  | .error e => (.error e, s)

end Kernel

section References

/-- The free of socks5_free, with the freeaddrinfo before it. -/
def socks5Free (s : Server) (a : ℕ) (o : Socks5) : Server :=
  { s with
    heap := Function.update s.heap a none
    books := { s.books with
      states := s.books.states.settle o.serial
      results := match o.dnsResult with
        | some r => s.books.results.settle r
        | none => s.books.results } }

def socks5Release (s : Server) (a : ℕ) : Except Halt Server :=
  match s.heap a with
  | none => .error .fault
  | some o =>
    match o.references with
    | 0 => .error .fault
    | 1 => .ok (socks5Free s a o)
    | n + 2 => .ok (s.set a { o with references := n + 1 })

/-- The initial reference is released. -/
def ownerRelease (s : Server) (a : ℕ) : Except Halt Server :=
  s.owned a fun o =>
    socks5Release
      { s.set a { o with released := true } with
        books := { s.books with owners := s.books.owners.settle o.serial } } a

/-- socks5_cancel; it waits for dns_mutex. -/
def socks5Cancel (s : Server) (a : ℕ) : Except Halt Server :=
  if s.locked a then .error .unreal
  else s.owned a fun o => .ok (s.set a { o with cancelled := true })

end References

section Selector

/-- `none` when selector_register fails: the number is too large, or in use. -/
def selectorRegister (s : Server) (fd : ℕ) (handler : Handler) (interest : FdInterest)
    (data : Option ℕ) (owner : Option ℕ) : Option Server :=
  if ITEMS_MAX_SIZE ≤ fd ∨ (s.items fd).isSome then none
  else
    let r : Registration := { owner := owner, n := s.books.registrations.issued.length }
    some { s.setItem fd (some ⟨handler, interest, data, r⟩) with
      books := { s.books with registrations := s.books.registrations.issue r } }

/-- selector_set_interest; an unused entry stays unused. -/
def selectorSetInterest (s : Server) (fd : Option ℕ) (i : FdInterest) : Server :=
  match fd with
  | none => s
  | some fd => s.setItem fd ((s.items fd).map fun it => { it with interest := i })

def socksv5PoolAdd (s : Server) (a : ℕ) : Server :=
  { s with
    pool := a :: s.pool
    poolSize := s.poolSize + 1
    metrics := metricsConnectionOpened s.metrics
    books := { s.books with added := s.books.added + 1 } }

/-- socksv5_pool_remove walks the list through the pool_next of its members. -/
def socksv5PoolRemove (s : Server) (a : ℕ) : Except Halt Server :=
  if s.pool.all fun b => (s.heap b).any fun o => !o.released then
    if a ∈ s.pool then
      .ok { s with
        pool := s.pool.erase a
        poolSize := s.poolSize - 1
        metrics := metricsConnectionClosed s.metrics
        books := { s.books with removed := s.books.removed + 1 } }
    else .ok s
  else .error .fault

/-- socksv5_close, up to its call of socks5_connection_close. -/
def socksv5Close (s : Server) (fd a : ℕ) : Except Halt Server :=
  s.owned a fun o =>
    socksv5PoolRemove
      ((s.set a (if o.clientFd = some fd then { o with clientRegistered := false } else o)).push
        [.connectionClose a]) a

def originConnectClose (s : Server) (fd a : ℕ) : Except Halt Server :=
  s.owned a fun o =>
    .ok (s.set a (if o.originFd = some fd then { o with originRegistered := false } else o))

/-- mon_close; the listeners have no data and no handle_close. -/
def monClose (s : Server) : Option ℕ → Server
  | some b => { s with taken := Function.update s.taken b false }
  | none => s

/-- handle_close of an entry. -/
def handleClose (s : Server) (fd : ℕ) (it : Item) : Except Halt Server :=
  match it.handler, it.data with
  | .socksv5, some a => socksv5Close s fd a
  | .origin, some a => originConnectClose s fd a
  | .other, d => .ok (monClose s d)
  | _, none => .error .fault

/-- selector_unregister_fd: the entry is cleared when handle_close has returned. -/
def selectorUnregisterFd (s : Server) (fd : ℕ) : Except Halt Server :=
  match s.items fd with
  | none => .ok s
  | some it =>
    handleClose
      { s with
        stack := .clear fd it.data :: s.stack
        books := { s.books with
          registrations := s.books.registrations.settle it.registration } } fd it

end Selector

section Close

def socks5ConnectionClose (s : Server) (a : ℕ) : Except Halt Server :=
  s.owned a fun o =>
    if o.closing then .ok s
    else .ok ((s.set a { o with closing := true }).push
      [.cancel a, .clientClose a, .originClose a, .release a])

/-- client_close up to close(fd), with client_unregister. -/
def clientClose (s : Server) (a : ℕ) : Except Halt Server :=
  s.owned a fun o =>
    match o.clientFd with
    | none => .ok s
    | some fd =>
      if o.clientRegistered then
        selectorUnregisterFd ((s.set a { o with clientRegistered := false }).push
          [.clientCloseFd a fd]) fd
      else .ok (s.push [.clientCloseFd a fd])

def clientCloseFd (s : Server) (a fd : ℕ) : Except Halt Server :=
  s.owned a fun o =>
    (sysClose s fd).map fun s =>
      s.set a (if o.clientFd = some fd then { o with clientFd := none } else o)

/-- origin_close up to its second look at origin_fd. -/
def originClose (s : Server) (a : ℕ) : Except Halt Server :=
  s.owned a fun o =>
    match o.originRegistered, o.originFd with
    | true, some fd =>
      selectorUnregisterFd ((s.set a { o with originRegistered := false }).push
        [.originCloseFd a]) fd
    | _, _ => .ok (s.push [.originCloseFd a])

def originCloseFd (s : Server) (a : ℕ) : Except Halt Server :=
  s.owned a fun o =>
    match o.originFd with
    | none => .ok s
    | some fd => (sysClose s fd).map fun s => s.set a { o with originFd := none }

end Close

end SocksProxy.ServerState
