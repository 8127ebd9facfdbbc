import SocksProxy.Connect
import SocksProxy.Runs
import SocksProxy.ServerState

/-!
The steps of the server. The main thread accepts, handles what the selector
dispatches, drains the notifications, or shuts down, one call of its stack at a
time; a worker finishes its lookup, notifies, and lets go. Any order of these is
a run.
-/
namespace SocksProxy.ServerSteps

open Kernel Request Ledgers ServerState Runs
open ConnState (Socks5State FdInterest OP_NOOP OP_READ OP_WRITE)
open MonServer (metricsAddBytes)

section Connect

def registerOriginConnect (s : Server) (a : ℕ) (d : Dial) : Except Halt (Status × Server) :=
  match s.heap a with
  | none => .error .fault
  | some o =>
    match d.socket with
    | .error e => .ok (.failed e, s)
    | .ok fd =>
      if (s.fds fd).isSome then .error .unreal
      else
        let t := sysOpen s fd (some o.serial) .origin
        match d.setNio with
        | some e => (sysClose t fd).map fun s => (.failed e, s)
        | none =>
          match d.connect with
          | .failed e => (sysClose t fd).map fun s => (.failed e, s)
          | status =>
            let interest := if status = .ok then OP_NOOP else OP_WRITE
            match selectorRegister (t.set a { o with originFd := some fd }) fd .origin interest
              (some a) (some o.serial) with
            | none => (sysClose t fd).map fun s =>
                (.failed .ECONNREFUSED, s.set a { o with originFd := none })
            | some t =>
              .ok (status, t.set a { o with originFd := some fd, originRegistered := true })

/-- The loop of start_resolved_connect; `n` counts the attempts made. -/
def resolvedLoop (a : ℕ) (k : Answers) :
    ℕ → Errno → List AddrInfo → Server → Except Halt (Status × Server)
  | _, lastError, [], s => .ok (.failed lastError, s)
  | n, lastError, ai :: rest, s =>
    match s.heap a with
    | none => .error .fault
    | some o =>
      let s := s.set a { o with dnsNext := rest }
      if ai.stream then
        match registerOriginConnect s a (k.attempt n) with
        | .ok (.failed e, s) => resolvedLoop a k (n + 1) e rest s
        | r => r
      else resolvedLoop a k n lastError rest s

def startResolvedConnect (s : Server) (a : ℕ) (o : Socks5) (k : Answers) :
    Except Halt (Status × Server) :=
  if o.dnsError ≠ 0 ∨ o.dnsResult = none then .ok (.failed .EHOSTUNREACH, s)
  else resolvedLoop a k 0 .EHOSTUNREACH o.dnsNext s

/-- What request_read and socks5_handle_block_done make of the status, and the
action that follows. -/
def connectDone (a : ℕ) (k : Answers) (status : Status) (s : Server) : Except Halt Server :=
  s.owned a fun o =>
    if status = .inProgress then
      .ok (selectorSetInterest (s.set a { o with current := .connecting }) o.clientFd OP_NOOP)
    else if k.fits then
      .ok (selectorSetInterest (s.set a { o with current := .requestWrite }) o.clientFd OP_WRITE)
    else .ok ((s.set a { o with current := .error }).push [.connectionClose a])

/-- connect_to_origin and what follows it; dns_resolve_start waits for dns_mutex. -/
def connectToOrigin (s : Server) (a : ℕ) (k : Answers) : Except Halt Server :=
  s.owned a fun o =>
    if o.atyp = SOCKS5_ATYP_IPV4 ∨ o.atyp = SOCKS5_ATYP_IPV6 then
      (registerOriginConnect s a (k.attempt 0)).bind fun r => connectDone a k r.1 r.2
    else if o.atyp = SOCKS5_ATYP_DOMAINNAME then
      if o.dnsPending then connectDone a k .inProgress s
      else if o.dnsResult ≠ none ∨ o.dnsError ≠ 0 then
        (startResolvedConnect s a o k).bind fun r => connectDone a k r.1 r.2
      else if k.spawn = .noMemory then connectDone a k (.failed .ENOMEM) s
      else .ok (s.push [.resolveStart a])
    else connectDone a k (.failed .EAFNOSUPPORT) s

/-- dns_resolve_start has its job and takes dns_mutex. -/
def resolveStart (s : Server) (a : ℕ) : Except Halt Server :=
  if s.locked a then .error .unreal
  else s.owned a fun o =>
    .ok ((s.set a { o with
      dnsPending := true, dnsError := 0, dnsResult := none, dnsNext := [] }).push
        [.resolveSpawn a])

/-- socks5_ref and pthread_create; without a thread the reference is released. -/
def resolveSpawn (s : Server) (a : ℕ) (k : Answers) : Except Halt Server :=
  s.owned a fun o =>
    match k.spawn, o.clientFd with
    | .started, some fd =>
      let t := s.set a { o with references := o.references + 1 }
      connectDone a k .inProgress
        { t with workers := t.workers ++
            [⟨a, fd, { serial := o.serial, n := t.workers.length }, .resolving⟩] }
    | .refused e, _ =>
      (socks5Release (s.set a { o with references := o.references + 1 }) a).map fun s =>
        s.push [.resolveFailed a e]
    | .started, none => .error .fault
    | .noMemory, _ => .error .unreal

/-- The last section of dns_resolve_start. -/
def resolveFailed (s : Server) (a : ℕ) (e : Errno) (k : Answers) : Except Halt Server :=
  if s.locked a then .error .unreal
  else s.owned a fun o => connectDone a k (.failed e) (s.set a { o with dnsPending := false })

/-- The end of origin_connect_write_handler. -/
def originConnectReply (a : ℕ) (k : Answers) (s : Server) : Except Halt Server :=
  s.owned a fun o =>
    if k.fits then
      .ok (selectorSetInterest (s.set a { o with current := .requestWrite }) o.clientFd OP_WRITE)
    else .ok (selectorSetInterest (s.set a { o with current := .error }) o.clientFd OP_READ)

/-- The failed origin socket is closed; the next address is tried when there is one. -/
def originDrop (s : Server) (a : ℕ) (k : Answers) : Except Halt Server :=
  (originCloseFd s a).bind fun s =>
    s.owned a fun o =>
      if o.atyp = SOCKS5_ATYP_DOMAINNAME ∧ o.dnsNext ≠ [] then
        (startResolvedConnect s a o k).bind fun r =>
          if r.1 = .inProgress then .ok r.2 else originConnectReply a k r.2
      else originConnectReply a k s

end Connect

section Handlers

/-- What a read of the client's socket leads to before the relay: nothing to read,
the end of the connection, a state that the callback returned (`pending` when
there are bytes to write), or a CONNECT request for an address of type `atyp`. -/
inductive Reads
  | again
  | closes
  | goes (state : Socks5State) (pending : Bool)
  | dials (atyp : UInt8)

/-- The same for a write; `starts` carries the interests of start_relay. -/
inductive Writes
  | again
  | closes
  | goes (state : Socks5State) (pending : Bool)
  | starts (client origin : FdInterest)

/-- A call of relay_flush: how many bytes the buffer holds, none where the handler does
not call it, and the kernel's answer to its write. -/
structure Flush where
  count : ℕ
  answer : WriteResult

/-- After its relay_flush a handler of the relay closes the connection or updates the
interests; it closes in any case when relay_flush fails. -/
inductive Relays
  | closes (flush : Flush)
  | continues (flush : Flush) (client origin : FdInterest)

/-- The states that on_read_ready may return, ERROR apart. -/
def readsTo : Socks5State → Socks5State → Bool
  | .helloRead, st => st = .helloRead || st = .helloWrite
  | .authRead, st => st = .authRead || st = .authWrite
  | .requestRead, st => st = .requestRead || st = .requestWrite
  | _, _ => false

/-- The states that on_write_ready may return, ERROR, DONE and RELAY apart. -/
def writesTo : Socks5State → Socks5State → Bool
  | .helloWrite, st => st = .helloWrite || st = .authRead
  | .authWrite, st => st = .authWrite || st = .requestRead
  | .requestWrite, st => st = .requestWrite
  | _, _ => false

/-- There is an on_read_ready. -/
def readable (st : Socks5State) : Bool := st = .helloRead || st = .authRead || st = .requestRead

/-- There is an on_write_ready. -/
def writable (st : Socks5State) : Bool := st = .helloWrite || st = .authWrite || st = .requestWrite

def relayUpdateInterests (s : Server) (o : Socks5) (client origin : FdInterest) : Server :=
  selectorSetInterest (selectorSetInterest s o.clientFd client) o.originFd origin

def relayFlush (s : Server) (fd : Option ℕ) (flush : Flush) : Bool × Server :=
  match fd with
  | none => (true, s)
  | some fd =>
    if flush.count = 0 then (true, s)
    else
      match sysWriteTo s fd flush.count flush.answer with
      | (.ok bytes, s) =>
        if 0 < bytes then
          (true, { s with metrics := metricsAddBytes s.metrics (UInt64.ofNat bytes) })
        else (true, s)
      | (.error .again, s) => (true, s)
      | (.error .fail, s) => (false, s)

/-- The handlers of the relay, each with the descriptor that it flushes to. -/
def relayHandler (s : Server) (a : ℕ) (o : Socks5) (fd : Option ℕ) : Relays → Except Halt Server
  | .closes flush => .ok ((relayFlush s fd flush).2.push [.connectionClose a])
  | .continues flush client origin =>
    match relayFlush s fd flush with
    | (true, s) => .ok (relayUpdateInterests s o client origin)
    | (false, s) => .ok (s.push [.connectionClose a])

/-- Nothing but the two records of the bytes is changed by relay_flush, and both by the
same count. -/
theorem relayFlush_spec (s : Server) (fd : Option ℕ) (flush : Flush) : ∃ bytes writes,
    (relayFlush s fd flush).2 = { s with
      metrics := metricsAddBytes s.metrics (UInt64.ofNat bytes)
      books := { s.books with writes := writes } } ∧
    (writes.map Prod.snd).sum = s.books.written + bytes := by
  have hnone : s = { s with
      metrics := metricsAddBytes s.metrics (UInt64.ofNat 0)
      books := { s.books with writes := s.books.writes } } := by
    have hzero : metricsAddBytes s.metrics (UInt64.ofNat 0) = s.metrics := by
      simp [metricsAddBytes]
    rw [hzero]
  unfold relayFlush sysWriteTo
  cases fd with
  | none => exact ⟨0, _, hnone, rfl⟩
  | some fd =>
    dsimp only
    split
    · exact ⟨0, _, hnone, rfl⟩
    · cases sysWrite flush.count flush.answer with
      | error e => cases e <;> exact ⟨0, _, hnone, rfl⟩
      | ok n =>
        refine ⟨n, (fd, n.val) :: s.books.writes, ?_, ?_⟩
        · dsimp only
          split
          next => rfl
          next hzero =>
            obtain hzero : n.val = 0 := Nat.eq_zero_of_not_pos hzero
            simp [hzero, metricsAddBytes]
        · rw [List.map_cons, List.sum_cons]
          exact Nat.add_comm _ _

/-- socksv5_read before the relay. -/
def socksv5Read (s : Server) (a : ℕ) (o : Socks5) (k : Answers) : Reads → Except Halt Server
  | .again => .ok (selectorSetInterest s o.clientFd OP_READ)
  | .closes => .ok (s.push [.connectionClose a])
  | .goes st pending =>
    if readable o.current = false then .error .abort
    else if readsTo o.current st then
      .ok (selectorSetInterest (s.set a { o with current := st }) o.clientFd
        (if pending then OP_WRITE else OP_READ))
    else .error .unreal
  | .dials atyp =>
    if o.current = .requestRead then connectToOrigin (s.set a { o with atyp := atyp }) a k
    else .error .unreal

/-- socksv5_write before the relay. -/
def socksv5Write (s : Server) (a : ℕ) (o : Socks5) : Writes → Except Halt Server
  | .again => .ok (selectorSetInterest s o.clientFd OP_WRITE)
  | .closes => .ok (s.push [.connectionClose a])
  | .goes st pending =>
    if writable o.current = false then .error .abort
    else if writesTo o.current st then
      .ok (selectorSetInterest (s.set a { o with current := st }) o.clientFd
        (if pending then OP_WRITE else OP_READ))
    else .error .unreal
  | .starts client origin =>
    if o.current = .requestWrite then
      .ok (relayUpdateInterests (s.set a { o with current := .relay, relayStarted := true }) o
        client origin)
    else .error .unreal

/-- origin_connect_write_handler; `fd` is the descriptor of the key. -/
def originConnectWriteHandler (s : Server) (fd a : ℕ) (o : Socks5) (error : Status) (k : Answers) :
    Except Halt Server :=
  if error = .ok then originConnectReply a k (selectorSetInterest s (some fd) OP_NOOP)
  else if o.originRegistered && o.originFd.isSome then
    selectorUnregisterFd ((s.set a { o with originRegistered := false }).push [.originDrop a]) fd
  else .ok (s.push [.originDrop a])

/-- The connection whose entry `fd` is dispatched, when `op` is armed. -/
def dispatched (s : Server) (fd : ℕ) (handler : Handler) (op : FdInterest → Bool) : Option ℕ :=
  match s.items fd with
  | some it => if it.handler = handler ∧ op it.interest = true then it.data else none
  | none => none

end Handlers

section Notifications

/-- The job at the head of the list has an entry with its data. -/
def jobMatches (s : Server) (j : BlockingJob) : Bool :=
  match s.items j.fd with
  | some it => it.data = some j.data
  | none => false

/-- The handler of the entry has a handle_block_done. -/
def jobHandled (s : Server) (j : BlockingJob) : Bool :=
  match s.items j.fd with
  | some it => it.handler = .socksv5
  | none => false

/-- socksv5_block_done waits for dns_mutex; then the lookup has been reported. -/
def socksv5BlockDone (s : Server) (j : BlockingJob) (k : Answers) : Except Halt Server :=
  if s.locked j.data then .error .unreal
  else s.owned j.data fun o =>
    connectToOrigin
      { s.set j.data { o with dnsPending := false } with
        books := { s.books with blockDone := (o.serial, j.lookup) :: s.books.blockDone } } j.data k

/-- One round of handle_block_notifications, up to the cleanup. -/
def handleBlockNotifications (s : Server) (k : Answers) : Except Halt Server :=
  match s.jobs with
  | [] => .ok s
  | j :: _ =>
    let t := s.push [.cleanup, .notifications]
    if jobMatches s j && jobHandled s j then socksv5BlockDone t j k else .ok t

/-- j->cleanup and free(aux). -/
def jobCleanup (s : Server) : Except Halt Server :=
  match s.jobs with
  | [] => .error .fault
  | j :: js => (socks5Release s j.data).map fun s => { s with jobs := js }

end Notifications

section Shutdown

/-- One round of socksv5_pool_force_shutdown. -/
def poolForceShutdown (s : Server) : Except Halt Server :=
  match s.pool with
  | [] => .ok s
  | a :: _ => socks5Cancel (s.push [.connectionClose a, .forceCheck a, .force]) a

def forceCheck (s : Server) (a : ℕ) : Except Halt Server :=
  if s.pool.head? = some a then socksv5PoolRemove s a else .ok s

/-- One round of the first loop of selector_destroy, or its end. -/
def selectorDestroy (s : Server) (i : ℕ) : Except Halt Server :=
  if i < FD_SIZE then selectorUnregisterFd (s.push [.destroy (i + 1)]) i
  else .ok (s.push [.destroyJobs])

/-- One round of the second loop of selector_destroy. -/
def destroyJobs (s : Server) : Except Halt Server :=
  match s.jobs with
  | [] => .ok (s.push [.ended])
  | j :: js => (socks5Release s j.data).map fun s => { s.push [.destroyJobs] with jobs := js }

end Shutdown

section Main

/-- The main thread goes on with the call `f`; the rest of the stack is in `s`. -/
def runFrame (s : Server) (k : Answers) : Frame → Except Halt Server
  | .connectionClose a => socks5ConnectionClose s a
  | .cancel a => socks5Cancel s a
  | .clientClose a => clientClose s a
  | .clientCloseFd a fd => clientCloseFd s a fd
  | .originClose a => originClose s a
  | .originCloseFd a => originCloseFd s a
  | .release a => ownerRelease s a
  | .clear fd _ => .ok (s.setItem fd none)
  | .resolveStart a => resolveStart s a
  | .resolveSpawn a => resolveSpawn s a k
  | .resolveFailed a e => resolveFailed s a e k
  | .originDrop a => originDrop s a k
  | .close fd => sysClose s fd
  | .notifications => handleBlockNotifications s k
  | .cleanup => jobCleanup s
  | .force => poolForceShutdown s
  | .forceCheck a => forceCheck s a
  | .destroy i => selectorDestroy s i
  | .destroyJobs => destroyJobs s
  | .ended => .error .unreal

/-- socksv5_passive_accept, after accept() returned `fd`; `state` is what malloc
returned. -/
def socksv5PassiveAccept (s : Server) (fd : ℕ) (nio : Bool) (state : Option ℕ) :
    Except Halt Server :=
  if (s.fds fd).isSome then .error .unreal
  else
    let serial := s.accepted
    let s := { sysOpen s fd (some serial) .client with accepted := serial + 1 }
    match nio, state with
    | true, some a =>
      if (s.heap a).isSome || s.taken a then .error .unreal
      else
        let s := { s.set a (socks5Init serial fd) with
          books := { s.books with
            states := s.books.states.issue serial, owners := s.books.owners.issue serial } }
        match selectorRegister s fd .socksv5 OP_READ (some a) (some serial) with
        | none => (ownerRelease s a).bind fun s => sysClose s fd
        | some s =>
          .ok (socksv5PoolAdd (s.set a { socks5Init serial fd with clientRegistered := true }) a)
    | _, _ => sysClose s fd

/-- A listener or a monitoring connection is opened and registered. -/
def otherOpen (s : Server) (fd : ℕ) (state : Option ℕ) (i : FdInterest) : Except Halt Server :=
  if (s.fds fd).isSome || state.any fun b => (s.heap b).isSome || s.taken b then .error .unreal
  else
    let s := sysOpen s fd none .client
    match selectorRegister s fd .other i state none with
    | none => sysClose s fd
    | some s => .ok { s with taken := state.elim s.taken fun b => Function.update s.taken b true }

/-- It is unregistered and closed. -/
def otherClose (s : Server) (fd : ℕ) : Except Halt Server :=
  match s.items fd with
  | some it =>
    if it.handler = .other then selectorUnregisterFd (s.push [.close fd]) fd else .error .unreal
  | none => .error .unreal

end Main

section Worker

/-- The worker `i` goes on to `st`. -/
def setWorker (s : Server) (i : ℕ) (w : DnsWorker) (st : WorkerState) : Server :=
  { s with workers := s.workers.set i { w with state := st } }

/-- getaddrinfo returned, and the worker has passed the check of `cancelled`. An
empty list is NULL. -/
def workerFinish (s : Server) (i : ℕ) (w : DnsWorker) (error : ℤ) (result : List AddrInfo) :
    Except Halt Server :=
  if s.locked w.socks then .error .unreal
  else
    match s.heap w.socks with
    | none => .error .fault
    | some o =>
      let r := s.books.results.issued.length
      let found := if result = [] then none else some r
      let s := if result = [] then s
        else { s with books := { s.books with results := s.books.results.issue r } }
      if o.cancelled then
        .ok (setWorker (s.set w.socks { o with dnsPending := false }) i w (.releasing found))
      else
        .ok (setWorker (s.set w.socks { o with
          dnsPending := false, dnsError := error, dnsResult := found, dnsNext := result })
          i w .notifying)

/-- selector_notify_block_done, with resolution_mutex or without memory. -/
def selectorNotifyBlockDone (s : Server) (i : ℕ) (w : DnsWorker) (queued : Bool) :
    Except Halt Server :=
  if queued then
    if s.selectorGone then .error .fault
    else if s.draining then .error .unreal
    else .ok { setWorker s i w (.unlocking true) with
      jobs := { fd := w.clientFd, data := w.socks, lookup := w.lookup } :: s.jobs }
  else .ok (setWorker s i w (.unlocking false))

/-- What a worker does next; `finish` and `notify` carry the answers it gets. -/
inductive WorkerStep
  | finish (error : ℤ) (result : List AddrInfo)
  | notify (queued : Bool)
  | unlock
  | release
  | exit

def dnsWorker (s : Server) (i : ℕ) (w : DnsWorker) : WorkerStep → Except Halt Server
  | .finish error result =>
    if w.state = .resolving then workerFinish s i w error result else .error .unreal
  | .notify queued =>
    if w.state = .notifying then selectorNotifyBlockDone s i w queued else .error .unreal
  | .unlock =>
    match w.state with
    | .unlocking queued =>
      if (s.heap w.socks).isSome then
        .ok (setWorker s i w (if queued then .freeing none else .releasing none))
      else .error .fault
    | _ => .error .unreal
  | .release =>
    match w.state with
    | .releasing r => (socks5Release s w.socks).map fun s => setWorker s i w (.freeing r)
    | _ => .error .unreal
  | .exit =>
    match w.state with
    | .freeing none => .ok (setWorker s i w .exited)
    | .freeing (some r) =>
      .ok { setWorker s i w .exited with
        books := { s.books with results := s.books.results.settle r } }
    | _ => .error .unreal

end Worker

section System

/-- What happens next: the idle main thread begins something, or goes on with
what it has begun, or a worker does. The handlers of a descriptor get what they
find before the relay, and what they find in it. -/
inductive Event
  | accept (fd : ℕ) (nio : Bool) (state : Option ℕ)
  | clientRead (fd : ℕ) (r : Reads) (relay : Relays) (k : Answers)
  | clientWrite (fd : ℕ) (w : Writes) (relay : Relays)
  | originRead (fd : ℕ) (relay : Relays)
  | originWrite (fd : ℕ) (error : Status) (relay : Relays) (k : Answers)
  | notifications
  | forceShutdown
  | destroy
  | otherOpen (fd : ℕ) (state : Option ℕ) (i : FdInterest)
  | otherClose (fd : ℕ)
  | run (k : Answers)
  | worker (i : ℕ) (w : WorkerStep)

/-- The handler `k` is called for the entry `fd`. -/
def callHandler (s : Server) (fd : ℕ) (handler : Handler) (op : FdInterest → Bool)
    (k : ℕ → Socks5 → Except Halt Server) : Except Halt Server :=
  match dispatched s fd handler op with
  | none => .error .unreal
  | some a => s.owned a fun o => k a o

/-- The main thread is in the selector and begins with `e`. -/
def begins (s : Server) : Event → Except Halt Server
  | .accept fd nio state => socksv5PassiveAccept s fd nio state
  | .clientRead fd r relay k =>
    callHandler s fd .socksv5 FdInterest.read fun a o =>
      if o.relayStarted then relayHandler s a o o.originFd relay else socksv5Read s a o k r
  | .clientWrite fd w relay =>
    callHandler s fd .socksv5 FdInterest.write fun a o =>
      if o.relayStarted then relayHandler s a o o.clientFd relay else socksv5Write s a o w
  | .originRead fd relay =>
    callHandler s fd .origin FdInterest.read fun a o => relayHandler s a o o.clientFd relay
  | .originWrite fd error relay k =>
    callHandler s fd .origin FdInterest.write fun a o =>
      if o.relayStarted then relayHandler s a o o.originFd relay
      else originConnectWriteHandler s fd a o error k
  | .notifications => .ok (s.push [.notifications])
  | .forceShutdown => .ok (s.push [.force])
  | .destroy => .ok (s.push [.destroy 0])
  | .otherOpen fd state i => otherOpen s fd state i
  | .otherClose fd => otherClose s fd
  | .run _ => .error .unreal
  | .worker _ _ => .error .unreal

def step (s : Server) : Event → Except Halt Server
  | .run k =>
    match s.stack with
    | [] => .error .unreal
    | f :: fs => runFrame { s with stack := fs } k f
  | .worker i w =>
    match s.workers[i]? with
    | none => .error .unreal
    | some worker => dnsWorker s i worker w
  | e => if s.stack = [] then begins s e else .error .unreal

/-- `s` goes to `s'` by `e`. -/
def Step (s : Server) (e : Event) (s' : Server) : Prop := step s e = .ok s'

end System

end SocksProxy.ServerSteps
