import SocksProxy.Auth
import Mathlib.Tactic.IntervalCases

/-!
request.c: the CONNECT request, RFC 1928 section 4, and the reply. A finished
parser either rejected the version, the reserved byte or the address type, or
read a complete message and holds its command, address and port.
-/
namespace SocksProxy.Request

open ByteBuffer ByteScan Hello Auth

def SOCKS5_CMD_CONNECT : UInt8 := 0x01
def SOCKS5_ATYP_IPV4 : UInt8 := 0x01
def SOCKS5_ATYP_DOMAINNAME : UInt8 := 0x03
def SOCKS5_ATYP_IPV6 : UInt8 := 0x04
def SOCKS5_REPLY_SUCCEEDED : UInt8 := 0x00
def SOCKS5_REPLY_GENERAL_FAILURE : UInt8 := 0x01
def SOCKS5_REPLY_NETWORK_UNREACHABLE : UInt8 := 0x03
def SOCKS5_REPLY_HOST_UNREACHABLE : UInt8 := 0x04
def SOCKS5_REPLY_CONNECTION_REFUSED : UInt8 := 0x05
def SOCKS5_REPLY_COMMAND_NOT_SUPPORTED : UInt8 := 0x07
def SOCKS5_REPLY_ADDRESS_TYPE_NOT_SUPPORTED : UInt8 := 0x08

/-- `enum request_state`. -/
inductive RequestState
  | requestVersion
  | requestCommand
  | requestReserved
  | requestAtyp
  | requestDstAddr
  | requestDstPort
  | requestDone
  | requestErrorUnsupportedVersion
  | requestErrorUnsupportedAtyp
  deriving DecidableEq

/-- `struct request_parser`. `portIndex` stays below 2 while the port is read. -/
structure RequestParser where
  state : RequestState
  command : UInt8
  atyp : UInt8
  address : Vector UInt8 256
  addressLen : UInt8
  addressIndex : UInt8
  port : Vector UInt8 2
  portIndex : UInt8

/-- The zeroed parser of a fresh connection. -/
def requestParserZero : RequestParser :=
  { state := .requestVersion, command := 0, atyp := 0, address := Vector.replicate 256 0,
    addressLen := 0, addressIndex := 0, port := Vector.replicate 2 0, portIndex := 0 }

def requestParserInit (p : RequestParser) : RequestParser :=
  { p with
    state := .requestVersion, command := 0, atyp := 0, addressLen := 0, addressIndex := 0
    port := Vector.replicate 2 0, portIndex := 0 }

def requestParserFeed (p : RequestParser) (b : UInt8) : RequestParser :=
  match p.state with
  | .requestVersion =>
    { p with state := if b = 0x05 then .requestCommand else .requestErrorUnsupportedVersion }
  | .requestCommand => { p with command := b, state := .requestReserved }
  | .requestReserved =>
    { p with state := if b = 0x00 then .requestAtyp else .requestErrorUnsupportedVersion }
  | .requestAtyp =>
    let p := { p with atyp := b, addressIndex := 0 }
    if b = SOCKS5_ATYP_IPV4 then { p with addressLen := 4, state := .requestDstAddr }
    else if b = SOCKS5_ATYP_IPV6 then { p with addressLen := 16, state := .requestDstAddr }
    else if b = SOCKS5_ATYP_DOMAINNAME then { p with addressLen := 0, state := .requestDstAddr }
    else { p with state := .requestErrorUnsupportedAtyp }
  | .requestDstAddr =>
    -- a domain name announces its length first; 0 stands for "not read yet"
    if p.atyp = SOCKS5_ATYP_DOMAINNAME ∧ p.addressLen = 0 then
      { p with
        addressLen := b, state := if b = 0 then .requestErrorUnsupportedAtyp else p.state }
    else
      let p := { p with address := setAt p.address p.addressIndex b
                        addressIndex := p.addressIndex + 1 }
      if p.addressIndex = p.addressLen then { p with portIndex := 0, state := .requestDstPort }
      else p
  | .requestDstPort =>
    let p := { p with port := p.port.setIfInBounds p.portIndex.toNat b
                      portIndex := p.portIndex + 1 }
    if p.portIndex = 2 then { p with state := .requestDone } else p
  | .requestDone => p
  | .requestErrorUnsupportedVersion => p
  | .requestErrorUnsupportedAtyp => p

def requestIsDone : RequestState → Bool
  | .requestErrorUnsupportedVersion => true
  | .requestErrorUnsupportedAtyp => true
  | .requestDone => true
  | _ => false

/-- What request_is_done stores through its `errored` argument. -/
def requestIsErrored : RequestState → Bool
  | .requestErrorUnsupportedVersion => true
  | .requestErrorUnsupportedAtyp => true
  | _ => false

def requestConsume (b : Buffer) (p : RequestParser) : Buffer × RequestParser × Bool :=
  consume requestParserFeed (fun p => requestIsDone p.state) (fun p => requestIsErrored p.state)
    b p

theorem requestErrored_done (p : RequestParser) (h : requestIsErrored p.state = true) :
    requestIsDone p.state = true := by
  cases hs : p.state <;> simp_all [requestIsErrored, requestIsDone]

/-- The addresses a request can carry. -/
def ValidAddress (atyp : UInt8) (address : List UInt8) : Prop :=
  (atyp = SOCKS5_ATYP_IPV4 ∧ address.length = 4) ∨
  (atyp = SOCKS5_ATYP_IPV6 ∧ address.length = 16) ∨
  (atyp = SOCKS5_ATYP_DOMAINNAME ∧ 1 ≤ address.length ∧ address.length ≤ 255)

/-- VER CMD RSV ATYP DST.ADDR DST.PORT. -/
def requestMessage (command atyp : UInt8) (address : List UInt8) (port : UInt8 × UInt8) :
    List UInt8 :=
  0x05 :: command :: 0x00 :: atyp ::
    ((if atyp = SOCKS5_ATYP_DOMAINNAME then [UInt8.ofNat address.length] else []) ++
      (address ++ [port.1, port.2]))

/-- The byte strings at whose last byte the parser gives up. -/
def RequestRejected (m : List UInt8) : Prop :=
  (∃ c, c ≠ 0x05 ∧ m = [c]) ∨
  (∃ c r, r ≠ 0x00 ∧ m = [0x05, c, r]) ∨
  (∃ c a, a ≠ SOCKS5_ATYP_IPV4 ∧ a ≠ SOCKS5_ATYP_IPV6 ∧ a ≠ SOCKS5_ATYP_DOMAINNAME ∧
    m = [0x05, c, 0x00, a]) ∨
  ∃ c, m = [0x05, c, 0x00, SOCKS5_ATYP_DOMAINNAME, 0]

/-- A parser that read the message of these fields. -/
structure Read (command atyp : UInt8) (address : List UInt8) (port : UInt8 × UInt8)
    (p : RequestParser) : Prop where
  state_eq : p.state = .requestDone
  command_eq : p.command = command
  atyp_eq : p.atyp = atyp
  addressLen_eq : p.addressLen.toNat = address.length
  address_holds : Holds p.address address
  port_eq : p.port = #v[port.1, port.2]

section Grammar

private abbrev RequestEnds (p : RequestParser) (l : List UInt8) : Prop :=
  Ends requestParserFeed (fun p => requestIsDone p.state) p l

private abbrev RequestPartial (p : RequestParser) (l : List UInt8) : Prop :=
  Partial requestParserFeed (fun p => requestIsDone p.state) p l

/-- `k` address bytes are missing; with none missing the port comes next. -/
private structure AddressLeft (command atyp : UInt8) (k : ℕ) (w : List UInt8)
    (p : RequestParser) : Prop where
  command_eq : p.command = command
  atyp_eq : p.atyp = atyp
  length_pos : p.addressLen ≠ 0
  length_eq : p.addressLen.toNat = w.length + k
  holds : Holds p.address w
  index_eq : k ≠ 0 → p.addressIndex.toNat = w.length
  port_eq : k = 0 → p.portIndex = 0
  state_eq : p.state = if k = 0 then .requestDstPort else .requestDstAddr

private theorem addressLeft_step {command atyp : UInt8} {k : ℕ} {w : List UInt8}
    {p : RequestParser} (c : UInt8) (h : AddressLeft command atyp (k + 1) w p) :
    AddressLeft command atyp k (w ++ [c]) (requestParserFeed p c) := by
  have hindex := h.index_eq (by omega)
  have hlen := h.length_eq
  have hpos := h.length_pos
  have hs : p.state = .requestDstAddr := by simpa using h.state_eq
  have hleft : p.addressIndex.toNat + (k + 1) = p.addressLen.toNat := by omega
  have hnext := add_one_toNat hleft
  have hput := h.holds.snoc c hindex
  by_cases hk : k = 0
  · have hlast : p.addressIndex + 1 = p.addressLen := UInt8.toNat_inj.mp (by rw [hnext]; omega)
    constructor <;> simp [requestParserFeed, hs, hpos, hlast, hk, h.command_eq, h.atyp_eq, hput]
    omega
  · have hmore : p.addressIndex + 1 ≠ p.addressLen := by
      intro h
      have := congrArg UInt8.toNat h
      omega
    constructor <;> simp [requestParserFeed, hs, hpos, hmore, hk, h.command_eq, h.atyp_eq, hput]
    · omega
    · rw [← hindex]
      exact hnext

private theorem addressLeft_done {command atyp : UInt8} {k : ℕ} {w : List UInt8}
    {p : RequestParser} (h : AddressLeft command atyp k w p) : requestIsDone p.state = false := by
  rw [h.state_eq]
  split <;> rfl

private theorem port_ends {command atyp : UInt8} {w : List UInt8} {p : RequestParser}
    (h : AddressLeft command atyp 0 w p) (hi lo : UInt8) :
    RequestEnds p [hi, lo] ∧
      Read command atyp w (hi, lo) (feedAll requestParserFeed p [hi, lo]) := by
  have hs : p.state = .requestDstPort := by simpa using h.state_eq
  have hport := h.port_eq rfl
  have hlen := h.length_eq
  have hset : (p.port.setIfInBounds 0 hi).setIfInBounds 1 lo = #v[hi, lo] := by
    apply Vector.ext
    intro i hi'
    interval_cases i <;> simp
  refine ⟨by simp [Ends, requestParserFeed, hs, hport, requestIsDone], ?_⟩
  constructor <;>
    simp [requestParserFeed, hs, hport, h.command_eq, h.atyp_eq, h.holds, hset]
  omega

/-- VER CMD RSV ATYP, and for a domain name its length `n`. -/
private def addressPrefix (command atyp n : UInt8) : List UInt8 :=
  0x05 :: command :: 0x00 :: atyp :: (if atyp = SOCKS5_ATYP_DOMAINNAME then [n] else [])

/-- The address length that `atyp` fixes, or `n` for a domain name. -/
private def AddressLength (atyp n : UInt8) : Prop :=
  (atyp = SOCKS5_ATYP_IPV4 ∧ n = 4) ∨ (atyp = SOCKS5_ATYP_IPV6 ∧ n = 16) ∨
    (atyp = SOCKS5_ATYP_DOMAINNAME ∧ n ≠ 0)

private theorem address_start (p : RequestParser) (command : UInt8) {atyp n : UInt8}
    (h : AddressLength atyp n) :
    RequestPartial (requestParserInit p) (addressPrefix command atyp n) ∧
      AddressLeft command atyp n.toNat []
        (feedAll requestParserFeed (requestParserInit p) (addressPrefix command atyp n)) := by
  rcases h with ⟨rfl, rfl⟩ | ⟨rfl, rfl⟩ | ⟨rfl, hn⟩
  · refine ⟨by simp [Partial, requestParserFeed, requestParserInit, addressPrefix, requestIsDone,
      SOCKS5_ATYP_IPV4, SOCKS5_ATYP_DOMAINNAME], ?_⟩
    constructor <;> simp [requestParserFeed, requestParserInit, addressPrefix, Holds.nil,
      SOCKS5_ATYP_IPV4, SOCKS5_ATYP_DOMAINNAME]
  · refine ⟨by simp [Partial, requestParserFeed, requestParserInit, addressPrefix, requestIsDone,
      SOCKS5_ATYP_IPV4, SOCKS5_ATYP_IPV6, SOCKS5_ATYP_DOMAINNAME], ?_⟩
    constructor <;> simp [requestParserFeed, requestParserInit, addressPrefix, Holds.nil,
      SOCKS5_ATYP_IPV4, SOCKS5_ATYP_IPV6, SOCKS5_ATYP_DOMAINNAME]
  · have hpos : n.toNat ≠ 0 := fun h => hn (UInt8.toNat_inj.mp h)
    refine ⟨by simp [Partial, requestParserFeed, requestParserInit, addressPrefix, requestIsDone,
      SOCKS5_ATYP_IPV4, SOCKS5_ATYP_IPV6, SOCKS5_ATYP_DOMAINNAME, hn], ?_⟩
    constructor <;> simp [requestParserFeed, requestParserInit, addressPrefix, Holds.nil,
      SOCKS5_ATYP_IPV4, SOCKS5_ATYP_IPV6, SOCKS5_ATYP_DOMAINNAME, hn, hpos]

private theorem addressLength_of_valid {atyp : UInt8} {address : List UInt8}
    (h : ValidAddress atyp address) :
    AddressLength atyp (UInt8.ofNat address.length) ∧
      (UInt8.ofNat address.length).toNat = address.length := by
  rcases h with ⟨ha, hlen⟩ | ⟨ha, hlen⟩ | ⟨ha, hlo, hhi⟩
  · exact ⟨Or.inl ⟨ha, by rw [hlen]; rfl⟩, by rw [hlen]; rfl⟩
  · exact ⟨Or.inr (Or.inl ⟨ha, by rw [hlen]; rfl⟩), by rw [hlen]; rfl⟩
  · have hnat : (UInt8.ofNat address.length).toNat = address.length := by
      rw [UInt8.toNat_ofNat']
      omega
    refine ⟨Or.inr (Or.inr ⟨ha, ?_⟩), hnat⟩
    intro h0
    rw [h0, UInt8.toNat_zero] at hnat
    omega

private theorem valid_of_addressLength {atyp n : UInt8} {address : List UInt8}
    (h : AddressLength atyp n) (hlen : address.length = n.toNat) : ValidAddress atyp address := by
  rcases h with ⟨ha, rfl⟩ | ⟨ha, rfl⟩ | ⟨ha, hn⟩
  · exact Or.inl ⟨ha, hlen⟩
  · exact Or.inr (Or.inl ⟨ha, hlen⟩)
  · have hpos : n.toNat ≠ 0 := fun h => hn (UInt8.toNat_inj.mp h)
    have hlt := n.toNat_lt
    exact Or.inr (Or.inr ⟨ha, by omega, by omega⟩)

private theorem requestMessage_eq (command atyp : UInt8) (address : List UInt8)
    (port : UInt8 × UInt8) : requestMessage command atyp address port =
      addressPrefix command atyp (UInt8.ofNat address.length) ++
        (address ++ [port.1, port.2]) := rfl

/-- Every complete message finishes the parser, which then holds its fields. -/
theorem request_ends_message (p : RequestParser) (command : UInt8) {atyp : UInt8}
    {address : List UInt8} (port : UInt8 × UInt8) (h : ValidAddress atyp address) :
    Ends requestParserFeed (fun p => requestIsDone p.state) (requestParserInit p)
        (requestMessage command atyp address port) ∧
      Read command atyp address port (feedAll requestParserFeed (requestParserInit p)
        (requestMessage command atyp address port)) := by
  obtain ⟨hlen, hnat⟩ := addressLength_of_valid h
  obtain ⟨hpart, hleft⟩ := address_start p command hlen
  rw [hnat] at hleft
  have hmid := partial_through addressLeft_step addressLeft_done address hleft
  have hport := feedAll_phase (k := 0) addressLeft_step address (by simpa using hleft)
  rw [List.nil_append] at hport
  obtain ⟨hends, hread⟩ := port_ends hport port.1 port.2
  rw [requestMessage_eq, feedAll_append, feedAll_append]
  refine ⟨?_, hread⟩
  exact (ends_append_of_unfinished hpart _).mpr ((ends_append_of_unfinished hmid _).mpr hends)

private theorem eq_port {command atyp : UInt8} {w : List UInt8} {p : RequestParser}
    (h : AddressLeft command atyp 0 w p) {r : List UInt8} (hr : RequestEnds p r) :
    ∃ hi lo, r = [hi, lo] := by
  match r, hr with
  | [], hr => exact hr.elim
  | [x], hr =>
    have hs : p.state = .requestDstPort := by simpa using h.state_eq
    simp [Ends, requestParserFeed, hs, h.port_eq rfl, requestIsDone] at hr
  | x :: y :: t, hr =>
    have hsplit : (x :: y :: t) ++ [] = [x, y] ++ t := by simp
    obtain ⟨heq, -⟩ := hr.unique (port_ends h x y).1 hsplit
    exact ⟨x, y, heq⟩

/-- Past a good prefix a finished request is a complete message. -/
private theorem ends_after_prefix {p : RequestParser} (command : UInt8) {atyp n : UInt8}
    {l : List UInt8}
    (hlen : AddressLength atyp n)
    (h : RequestEnds (requestParserInit p) (addressPrefix command atyp n ++ l)) :
    ∃ address port, ValidAddress atyp address ∧
      addressPrefix command atyp n ++ l = requestMessage command atyp address port ∧
      Read command atyp address port
        (feedAll requestParserFeed (requestParserInit p) (addressPrefix command atyp n ++ l)) := by
  obtain ⟨hpart, hleft⟩ := address_start p command hlen
  obtain ⟨u, r, rfl, hu, hport, hr⟩ := ends_through addressLeft_step addressLeft_done hleft
    ((ends_append_of_unfinished hpart l).mp h)
  rw [List.nil_append] at hport
  obtain ⟨hi, lo, rfl⟩ := eq_port hport hr
  refine ⟨u, (hi, lo), valid_of_addressLength hlen hu, ?_, ?_⟩
  · rw [requestMessage_eq, hu, UInt8.ofNat_toNat]
  · rw [feedAll_append, feedAll_append]
    exact (port_ends hport hi lo).2

/-- A finished request was rejected or is a complete message. -/
theorem request_ends_cases {p : RequestParser} {m : List UInt8}
    (h : Ends requestParserFeed (fun p => requestIsDone p.state) (requestParserInit p) m) :
    (RequestRejected m ∧
      requestIsErrored (feedAll requestParserFeed (requestParserInit p) m).state = true) ∨
    ∃ command atyp address port, ValidAddress atyp address ∧
      m = requestMessage command atyp address port ∧
      Read command atyp address port (feedAll requestParserFeed (requestParserInit p) m) := by
  match m, h with
  | [], h => exact h.elim
  | v :: m, h =>
    by_cases hv : v = 0x05
    swap
    · have hm : m = [] := by
        simpa [Ends, requestParserFeed, requestParserInit, requestIsDone, hv] using h
      subst hm
      exact Or.inl ⟨Or.inl ⟨v, hv, rfl⟩,
        by simp [requestParserFeed, requestParserInit, requestIsErrored, hv]⟩
    subst hv
    match m, h with
    | [], h => simp [Ends, requestParserFeed, requestParserInit, requestIsDone] at h
    | [c], h => simp [Ends, requestParserFeed, requestParserInit, requestIsDone] at h
    | c :: r :: m, h =>
      by_cases hr : r = 0x00
      swap
      · have hm : m = [] := by
          simpa [Ends, requestParserFeed, requestParserInit, requestIsDone, hr] using h
        subst hm
        exact Or.inl ⟨Or.inr (Or.inl ⟨c, r, hr, rfl⟩),
          by simp [requestParserFeed, requestParserInit, requestIsErrored, hr]⟩
      subst hr
      match m, h with
      | [], h => simp [Ends, requestParserFeed, requestParserInit, requestIsDone] at h
      | a :: m, h =>
        by_cases h4 : a = SOCKS5_ATYP_IPV4
        · subst h4
          obtain ⟨address, port, hmsg⟩ := ends_after_prefix c (n := 4) (l := m)
            (Or.inl ⟨rfl, rfl⟩) h
          exact Or.inr ⟨c, _, address, port, hmsg⟩
        by_cases h6 : a = SOCKS5_ATYP_IPV6
        · subst h6
          obtain ⟨address, port, hmsg⟩ := ends_after_prefix c (n := 16) (l := m)
            (Or.inr (Or.inl ⟨rfl, rfl⟩)) h
          exact Or.inr ⟨c, _, address, port, hmsg⟩
        by_cases hd : a = SOCKS5_ATYP_DOMAINNAME
        swap
        · have hm : m = [] := by
            simpa [Ends, requestParserFeed, requestParserInit, requestIsDone, h4, h6, hd] using h
          subst hm
          exact Or.inl ⟨Or.inr (Or.inr (Or.inl ⟨c, a, h4, h6, hd, rfl⟩)),
            by simp [requestParserFeed, requestParserInit, requestIsErrored, h4, h6, hd]⟩
        subst hd
        match m, h with
        | [], h =>
          simp [Ends, requestParserFeed, requestParserInit, requestIsDone, h4, h6] at h
        | n :: m, h =>
          by_cases hn : n = 0
          · subst hn
            have hm : m = [] := by
              simpa [Ends, requestParserFeed, requestParserInit, requestIsDone, h4, h6] using h
            subst hm
            exact Or.inl ⟨Or.inr (Or.inr (Or.inr ⟨c, rfl⟩)),
              by simp [requestParserFeed, requestParserInit, requestIsErrored, h4, h6]⟩
          · obtain ⟨address, port, hmsg⟩ := ends_after_prefix c (n := n) (l := m)
              (Or.inr (Or.inr ⟨rfl, hn⟩)) h
            exact Or.inr ⟨c, _, address, port, hmsg⟩

end Grammar

/-- What a `struct sockaddr` holds; `other` is any family but the two. -/
inductive SockAddr
  | inet (addr : Vector UInt8 4) (port : Vector UInt8 2)
  | inet6 (addr : Vector UInt8 16) (port : Vector UInt8 2)
  | other
  deriving DecidableEq

/-- The address type, address and port of a reply. `bind` is the sockaddr and
its length; without a usable one the reply carries zeros. -/
def replyAddress : Option (SockAddr × ℕ) → UInt8 × List UInt8 × List UInt8
  | some (.inet addr port, len) =>
    -- sizeof(struct sockaddr_in)
    if 16 ≤ len then (SOCKS5_ATYP_IPV4, addr.toList, port.toList)
    else (SOCKS5_ATYP_IPV4, [0, 0, 0, 0], [0, 0])
  | some (.inet6 addr port, len) =>
    -- sizeof(struct sockaddr_in6)
    if 28 ≤ len then (SOCKS5_ATYP_IPV6, addr.toList, port.toList)
    else (SOCKS5_ATYP_IPV4, [0, 0, 0, 0], [0, 0])
  | _ => (SOCKS5_ATYP_IPV4, [0, 0, 0, 0], [0, 0])

/-- VER REP RSV ATYP BND.ADDR BND.PORT. -/
def replyMessage (reply : UInt8) (bind : Option (SockAddr × ℕ)) : List UInt8 :=
  let (atyp, addr, port) := replyAddress bind
  [0x05, reply, 0x00, atyp] ++ addr ++ port

/-- request_marshall_reply: -1 when the buffer has no room for the reply. -/
def requestMarshallReply (b : Buffer) (reply : UInt8) (bind : Option (SockAddr × ℕ)) :
    Option Buffer :=
  if h : (replyMessage reply bind).length ≤ bufferWritePtr b then
    some (bufferPut b (replyMessage reply bind) h)
  else none

/-- A reply is 10 bytes for IPv4 and 22 for IPv6. -/
theorem replyMessage_cases (reply : UInt8) (bind : Option (SockAddr × ℕ)) :
    ∃ atyp addr port, replyMessage reply bind = [0x05, reply, 0x00, atyp] ++ addr ++ port ∧
      port.length = 2 ∧ (atyp = SOCKS5_ATYP_IPV4 ∧ addr.length = 4 ∨
        atyp = SOCKS5_ATYP_IPV6 ∧ addr.length = 16) := by
  refine ⟨(replyAddress bind).1, (replyAddress bind).2.1, (replyAddress bind).2.2, rfl, ?_⟩
  match bind with
  | some (.inet addr port, len) => by_cases h : 16 ≤ len <;> simp [replyAddress, h]
  | some (.inet6 addr port, len) => by_cases h : 28 ≤ len <;> simp [replyAddress, h]
  | some (.other, len) => simp [replyAddress]
  | none => simp [replyAddress]

theorem replyMessage_length_le (reply : UInt8) (bind : Option (SockAddr × ℕ)) :
    (replyMessage reply bind).length ≤ 22 := by
  obtain ⟨atyp, addr, port, heq, hport, ⟨-, h⟩ | ⟨-, h⟩⟩ := replyMessage_cases reply bind <;>
    simp [heq, hport, h]

end SocksProxy.Request
