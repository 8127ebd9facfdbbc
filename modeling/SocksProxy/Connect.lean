import SocksProxy.ConnState

/-!
connect.c and the main thread's half of dns_resolver.c: from a parsed request
to an origin socket, at once or through a DNS lookup, with fallback over the
resolved addresses.
-/
namespace SocksProxy.Connect

open ByteBuffer Hello Auth Request UserTable Kernel Stm ConnState

def connectReplyFromErrno : Status → UInt8
  | .ok => SOCKS5_REPLY_SUCCEEDED
  | .failed .ENETUNREACH => SOCKS5_REPLY_NETWORK_UNREACHABLE
  | .failed .EHOSTUNREACH => SOCKS5_REPLY_HOST_UNREACHABLE
  | .failed .ECONNREFUSED => SOCKS5_REPLY_CONNECTION_REFUSED
  | _ => SOCKS5_REPLY_GENERAL_FAILURE

def registerOriginConnect (a : Attempt) (addr : SockAddr) (c : Conn) : Status × Conn :=
  let c := c.log (.registerOriginConnect addr)
  match a.socket with
  | .error e => (.failed e, c)
  | .ok fd =>
    match a.setNio with
    | some e => (.failed e, c.log (.close .origin))
    | none =>
      match a.connect with
      | .ok =>
        if a.register then
          (.ok, { c with originFd := some fd, originItem := some OP_NOOP, originSock := .ok
                         originRegistered := true, requestReply := SOCKS5_REPLY_SUCCEEDED })
        else (.failed .ECONNREFUSED, { c with originFd := none }.log (.close .origin))
      | .failed e => (.failed e, c.log (.close .origin))
      | .inProgress =>
        if a.register then
          (.inProgress, { c with originFd := some fd, originItem := some OP_WRITE
                                 originSock := .inProgress, originRegistered := true })
        else (.failed .ECONNREFUSED, { c with originFd := none }.log (.close .origin))

def startIpv4Connect (sys : Sys) (c : Conn) : Status × Conn :=
  registerOriginConnect (sys.attempt 0)
    (.inet (Vector.ofFn fun i : Fin 4 => c.request.address[i.val]) c.request.port) c

def startIpv6Connect (sys : Sys) (c : Conn) : Status × Conn :=
  registerOriginConnect (sys.attempt 0)
    (.inet6 (Vector.ofFn fun i : Fin 16 => c.request.address[i.val]) c.request.port) c

/-- The loop of start_resolved_connect; `n` counts the attempts made. -/
def resolvedLoop (sys : Sys) : ℕ → Errno → List AddrInfo → Conn → Status × Conn
  | _, lastError, [], c => (.failed lastError, c)
  | n, lastError, ai :: rest, c =>
    let c := { c with dnsNext := rest }
    if ai.stream then
      match registerOriginConnect (sys.attempt n) ai.addr c with
      | (.failed e, c) => resolvedLoop sys (n + 1) e rest c
      | (status, c) => (status, c)
    else resolvedLoop sys n lastError rest c

def startResolvedConnect (sys : Sys) (c : Conn) : Status × Conn :=
  if c.dnsError ≠ 0 ∨ c.dnsResult = [] then (.failed .EHOSTUNREACH, c)
  else resolvedLoop sys 0 .EHOSTUNREACH c.dnsNext c

/-- The port that port_to_service prints. -/
def requestPort (p : RequestParser) : ℕ := p.port[0].toNat * 256 + p.port[1].toNat

/-- The bytes that dns_resolve_start and request_write copy before the NUL. -/
def requestHost (p : RequestParser) : List UInt8 := p.address.toList.take p.addressLen.toNat

def dnsResolveStart (sys : Sys) (c : Conn) : Status × Conn :=
  let c := c.log (.dnsResolveStart (requestHost c.request) (requestPort c.request))
  match sys.spawn with
  | .noMemory => (.failed .ENOMEM, c)
  | .refused e =>
    (.failed e, { c with dnsPending := false, dnsError := 0, dnsResult := [], dnsNext := [] })
  | .started =>
    (.inProgress, { c with dnsPending := true, dnsError := 0, dnsResult := [], dnsNext := []
                           dnsJob := .resolving })

def connectToOrigin (sys : Sys) (c : Conn) : Status × Conn :=
  if c.request.atyp = SOCKS5_ATYP_IPV4 then startIpv4Connect sys c
  else if c.request.atyp = SOCKS5_ATYP_IPV6 then startIpv6Connect sys c
  else if c.request.atyp = SOCKS5_ATYP_DOMAINNAME then
    if c.dnsPending then (.inProgress, c)
    else if c.dnsResult ≠ [] ∨ c.dnsError ≠ 0 then startResolvedConnect sys c
    else dnsResolveStart sys c
  else (.failed .EAFNOSUPPORT, c)

def connectMarshallReply (sys : Sys) (c : Conn) : Socks5State × Conn :=
  let addr :=
    if c.requestReply = SOCKS5_REPLY_SUCCEEDED ∧ c.originFd.isSome then sys.getsockname else none
  match requestMarshallReply c.writeBuffer c.requestReply addr with
  | none => (.error, c)
  | some b => (.requestWrite, { c with writeBuffer := b })

theorem connectMarshallReply_eq (sys : Sys) (c : Conn) :
    connectMarshallReply sys c =
      (requestMarshallReply c.writeBuffer c.requestReply
        (if c.requestReply = SOCKS5_REPLY_SUCCEEDED ∧ c.originFd.isSome then sys.getsockname
          else none)).elim (.error, c) fun b => (.requestWrite, { c with writeBuffer := b }) := by
  unfold connectMarshallReply
  simp only
  split
  next hnone => rw [hnone]; rfl
  next b hsome => rw [hsome]; rfl

/-- What getsockopt stores; a socket still connecting has no pending error. -/
def soError : Status → Status
  | .failed e => .failed e
  | _ => .ok

/-- The error that origin_connect_write_handler asks the kernel for. -/
def originConnectError (sys : Sys) (c : Conn) : Status :=
  match sys.getsockopt with
  | some e => .failed e
  | none => soError c.originSock

/-- The end of origin_connect_write_handler. -/
def originConnectReply (sys : Sys) (c : Conn) : Conn :=
  match connectMarshallReply sys c with
  | (.error, c) => selectorSetInterest { c with current := some .error } .client OP_READ
  | (_, c) => selectorSetInterest { c with current := some .requestWrite } .client OP_WRITE

/-- The failed origin socket leaves the selector and is closed. -/
def originConnectDrop (c : Conn) : Conn :=
  let c :=
    if c.originRegistered && c.originFd.isSome then
      { c with originRegistered := false, originItem := none }
    else c
  if c.originFd.isSome then { c with originFd := none }.log (.close .origin) else c

/-- The fallback of origin_connect_write_handler to the addresses that are left. -/
def originConnectNext (sys : Sys) (c : Conn) : Conn :=
  match startResolvedConnect sys c with
  | (.inProgress, c) => c
  | (status, c) =>
    originConnectReply sys { c with requestReply := connectReplyFromErrno status }

def originConnectWriteHandler (sys : Sys) (c : Conn) : Conn :=
  let error := originConnectError sys c
  let c := { c with requestReply := connectReplyFromErrno error }
  if error ≠ .ok then
    let c := originConnectDrop c
    if c.request.atyp = SOCKS5_ATYP_DOMAINNAME ∧ c.dnsNext ≠ [] then originConnectNext sys c
    else originConnectReply sys c
  else originConnectReply sys (selectorSetInterest c .origin OP_NOOP)

end SocksProxy.Connect
