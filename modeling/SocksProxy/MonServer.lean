import SocksProxy.AccessReport
import SocksProxy.MonParsing

/-!
The requests of mon_nio.c: send_response, the payloads and mon_process_request.
`answer` says what a request is for; mon_process_request stores the frame of
that answer in the write buffer.
-/
namespace SocksProxy.MonServer

open ByteBuffer BigEndian Auth UserTable AccessLog MonProtocol MonFormat MonParsing AccessReport

/-- `struct metrics`. -/
structure Metrics where
  historicConnections : UInt64
  currentConnections : UInt64
  bytesTransferred : UInt64
  deriving DecidableEq

def metricsInit : Metrics where
  historicConnections := 0
  currentConnections := 0
  bytesTransferred := 0

def metricsConnectionOpened (m : Metrics) : Metrics :=
  { m with
    historicConnections := m.historicConnections + 1
    currentConnections := m.currentConnections + 1 }

def metricsConnectionClosed (m : Metrics) : Metrics :=
  if m.currentConnections > 0 then { m with currentConnections := m.currentConnections - 1 } else m

def metricsAddBytes (m : Metrics) (n : UInt64) : Metrics :=
  { m with bytesTransferred := m.bytesTransferred + n }

/-- What all the connections share. `stack` is what an array of the payload's
size holds before it is written. -/
structure Server where
  users : Table
  log : Log
  metrics : Metrics
  stack : Vector UInt8 MON_RESPONSE_PAYLOAD_MAX

def serverInit : Server where
  users := userTableInit
  log := accessLogInit
  metrics := metricsInit
  stack := Vector.replicate _ 0

/-- The calls that change what is shared. -/
inductive ServerCall
  | addUser (name pass : List UInt8)
  | removeUser (name : List UInt8)
  | addAccess (a : Access)
  | connectionOpened
  | connectionClosed
  | addBytes (n : UInt64)
  | scribble (stack : Vector UInt8 MON_RESPONSE_PAYLOAD_MAX)

def ServerCall.run (s : Server) : ServerCall → Server
  | .addUser name pass => { s with users := (userTableAdd s.users name pass).2 }
  | .removeUser name => { s with users := (userTableRemove s.users name).2 }
  | .addAccess a => { s with log := accessLogAdd s.log a }
  | .connectionOpened => { s with metrics := metricsConnectionOpened s.metrics }
  | .connectionClosed => { s with metrics := metricsConnectionClosed s.metrics }
  | .addBytes n => { s with metrics := metricsAddBytes s.metrics n }
  | .scribble stack => { s with stack := stack }

/-- The states that calls lead to. -/
def Server.Reachable (s : Server) : Prop :=
  ∃ calls : List ServerCall, s = calls.foldl ServerCall.run serverInit

/-- `struct mon_conn`. -/
structure MonConn where
  readBuffer : Buffer
  writeBuffer : Buffer
  parser : MonParser
  authenticated : Bool
  deriving DecidableEq

/-- What mon_passive_accept sets up. -/
def monConnInit : MonConn where
  readBuffer := bufferInit MON_IO_BUF_SIZE
  writeBuffer := bufferInit MON_IO_BUF_SIZE
  parser := monParserInit monParserZero
  authenticated := false

/-- send_response: a response that does not fit is dropped. -/
def sendResponse (conn : MonConn) (status : UInt8) (payload : Option (List UInt8))
    (payloadLen : UInt16) : MonConn :=
  let resp : MonResponse :=
    { version := MON_VERSION, status := status, payloadLen := payloadLen, payload := payload }
  match h : monResponseEncode resp (bufferWritePtr conn.writeBuffer) with
  | none => conn
  | some bytes =>
    if bytes.length > 0 then
      { conn with writeBuffer := bufferPut conn.writeBuffer bytes (monResponseEncode_le h) }
    else conn

/-- `struct list_ctx`. -/
structure ListCtx where
  buf : List UInt8
  offset : ℕ
  cap : ℕ
  count : UInt8

def listUserCb (lc : ListCtx) (name : List UInt8) : ListCtx :=
  let len := min name.length 255
  if lc.offset + len + 1 ≤ lc.cap then
    { lc with
      buf := store (store lc.buf lc.offset [UInt8.ofNat len]) (lc.offset + 1) (name.take len)
      offset := lc.offset + 1 + len
      count := if lc.count < 255 then lc.count + 1 else lc.count }
  else lc

/-- The context of a listing; its first byte is left for the count. -/
def listCtxInit (s : Server) : ListCtx where
  buf := s.stack.toList
  offset := 1
  cap := MON_RESPONSE_PAYLOAD_MAX
  count := 0

/-- The string in `req->args[i]`. -/
def argString (req : MonRequest) (i : ℕ) (h : i < MON_MAX_ARGS) : List UInt8 :=
  cString req.args[i].toList

/-- The first and the second argument. -/
def firstArg (req : MonRequest) : List UInt8 := argString req 0 (by decide)

def secondArg (req : MonRequest) : List UInt8 := argString req 1 (by decide)

def monProcessRequest (s : Server) (conn : MonConn) : Server × MonConn :=
  let req := conn.parser.request
  if conn.authenticated = false ∧ req.cmd ≠ MON_CMD_AUTH then
    (s, sendResponse conn MON_STATUS_AUTH_FAIL none 0)
  else if req.cmd = MON_CMD_AUTH then
    if req.nargs < 2 ∨ ¬ userTableLookup s.users (firstArg req) (secondArg req) then
      (s, sendResponse conn MON_STATUS_AUTH_FAIL none 0)
    else
      (s, sendResponse { conn with authenticated := true } MON_STATUS_OK none 0)
  else if req.cmd = MON_CMD_ADD_USER then
    if req.nargs < 2 then (s, sendResponse conn MON_STATUS_INTERNAL_ERROR none 0)
    else
      let (added, users) := userTableAdd s.users (firstArg req) (secondArg req)
      if added then ({ s with users := users }, sendResponse conn MON_STATUS_OK none 0)
      else ({ s with users := users }, sendResponse conn MON_STATUS_USER_EXISTS none 0)
  else if req.cmd = MON_CMD_DEL_USER then
    if req.nargs < 1 then (s, sendResponse conn MON_STATUS_INTERNAL_ERROR none 0)
    else
      let (removed, users) := userTableRemove s.users (firstArg req)
      if removed then ({ s with users := users }, sendResponse conn MON_STATUS_OK none 0)
      else ({ s with users := users }, sendResponse conn MON_STATUS_USER_NOT_FOUND none 0)
  else if req.cmd = MON_CMD_LIST_USERS then
    let lc := userTableList s.users listUserCb (listCtxInit s)
    let payload := lc.buf.set 0 lc.count
    (s, sendResponse conn MON_STATUS_OK (some payload) (UInt16.ofNat lc.offset))
  else if req.cmd = MON_CMD_GET_METRICS then
    let payload := putBe s.metrics.historicConnections 8 ++
      putBe s.metrics.currentConnections 8 ++ putBe s.metrics.bytesTransferred 8
    (s, sendResponse conn MON_STATUS_OK (some payload) MON_METRICS_PAYLOAD_LEN)
  else if req.cmd = MON_CMD_GET_ACCESS_LOG then
    match accessLogPayload s.log s.stack.toList with
    | some (payload, off) =>
      (s, sendResponse conn MON_STATUS_OK (some payload) (UInt16.ofNat off))
    | none => (s, conn)  -- a write past the array, which `accessLogPayload_spec` excludes
  else (s, sendResponse conn MON_STATUS_UNKNOWN_CMD none 0)

section Answer

/-- What a request does and the response to it. -/
structure Answer where
  server : Server
  authenticated : Bool
  status : UInt8
  payload : List UInt8

/-- The payload of LIST_USERS. -/
def usersPayload (t : Table) : List UInt8 :=
  UInt8.ofNat (userNames t).length :: (userNames t).flatMap nameBytes

def metricsPayload (m : Metrics) : List UInt8 :=
  putBe m.historicConnections 8 ++ putBe m.currentConnections 8 ++ putBe m.bytesTransferred 8

def logPayload (s : Server) : List UInt8 :=
  match accessLogPayload s.log s.stack.toList with
  | some (payload, off) => payload.take off
  | none => []

/-- The answer to `cmd` with these arguments. -/
def answer (s : Server) (authenticated : Bool) (cmd : UInt8) (args : List (List UInt8)) : Answer :=
  if authenticated = false ∧ cmd ≠ MON_CMD_AUTH then ⟨s, authenticated, MON_STATUS_AUTH_FAIL, []⟩
  else if cmd = MON_CMD_AUTH then
    match args with
    | name :: pass :: _ =>
      if userTableLookup s.users (cString name) (cString pass) then ⟨s, true, MON_STATUS_OK, []⟩
      else ⟨s, authenticated, MON_STATUS_AUTH_FAIL, []⟩
    | _ => ⟨s, authenticated, MON_STATUS_AUTH_FAIL, []⟩
  else if cmd = MON_CMD_ADD_USER then
    match args with
    | name :: pass :: _ =>
      let (added, users) := userTableAdd s.users (cString name) (cString pass)
      ⟨{ s with users := users }, authenticated,
        if added then MON_STATUS_OK else MON_STATUS_USER_EXISTS, []⟩
    | _ => ⟨s, authenticated, MON_STATUS_INTERNAL_ERROR, []⟩
  else if cmd = MON_CMD_DEL_USER then
    match args with
    | name :: _ =>
      let (removed, users) := userTableRemove s.users (cString name)
      ⟨{ s with users := users }, authenticated,
        if removed then MON_STATUS_OK else MON_STATUS_USER_NOT_FOUND, []⟩
    | _ => ⟨s, authenticated, MON_STATUS_INTERNAL_ERROR, []⟩
  else if cmd = MON_CMD_LIST_USERS then ⟨s, authenticated, MON_STATUS_OK, usersPayload s.users⟩
  else if cmd = MON_CMD_GET_METRICS then ⟨s, authenticated, MON_STATUS_OK, metricsPayload s.metrics⟩
  else if cmd = MON_CMD_GET_ACCESS_LOG then ⟨s, authenticated, MON_STATUS_OK, logPayload s⟩
  else ⟨s, authenticated, MON_STATUS_UNKNOWN_CMD, []⟩

/-- What holds of every reachable state: strings end inside their arrays. -/
structure Server.Sound (s : Server) : Prop where
  names : NamesTerminated s.users
  log : ∀ e ∈ s.log.contents, Terminated e

theorem Server.Sound.init : serverInit.Sound where
  names := .init
  log := by
    intro e he
    rw [show serverInit.log.contents = [] from Circular.CircularArray.contents_empty _ _] at he
    exact absurd he List.not_mem_nil

theorem Server.Sound.run {s : Server} (h : s.Sound) (call : ServerCall) : (call.run s).Sound := by
  cases call with
  | addUser name pass => exact ⟨h.names.add name pass, h.log⟩
  | removeUser name => exact ⟨h.names.remove name, h.log⟩
  | addAccess a =>
    refine ⟨h.names, ?_⟩
    intro e he
    simp only [ServerCall.run, accessLogAdd, Circular.CircularArray.contents_push] at he
    have hmem := List.drop_subset _ _ he
    rw [List.mem_append, List.mem_singleton] at hmem
    rcases hmem with hold | rfl
    · exact h.log e hold
    · exact terminated_entry a
  | connectionOpened => exact ⟨h.names, h.log⟩
  | connectionClosed => exact ⟨h.names, h.log⟩
  | addBytes n => exact ⟨h.names, h.log⟩
  | scribble stack => exact ⟨h.names, h.log⟩

/-- An answer changes the server by a call or not at all. -/
theorem answer_server (s : Server) (authenticated : Bool) (cmd : UInt8)
    (args : List (List UInt8)) :
    (answer s authenticated cmd args).server = s ∨
      ∃ call : ServerCall, (answer s authenticated cmd args).server = call.run s := by
  unfold answer
  split
  · exact Or.inl rfl
  split
  · repeat' split
    all_goals exact Or.inl rfl
  split
  · split
    next name pass _ => exact Or.inr ⟨.addUser (cString name) (cString pass), rfl⟩
    next => exact Or.inl rfl
  split
  · split
    next name _ => exact Or.inr ⟨.removeUser (cString name), rfl⟩
    next => exact Or.inl rfl
  repeat' split
  all_goals exact Or.inl rfl

theorem Server.Sound.answer {s : Server} (h : s.Sound) (authenticated : Bool) (cmd : UInt8)
    (args : List (List UInt8)) : (MonServer.answer s authenticated cmd args).server.Sound := by
  rcases answer_server s authenticated cmd args with heq | ⟨call, heq⟩
  · rw [heq]
    exact h
  · rw [heq]
    exact h.run call

theorem Server.Reachable.sound {s : Server} (h : s.Reachable) : s.Sound := by
  obtain ⟨calls, rfl⟩ := h
  induction calls using List.reverseRecOn with
  | nil => exact .init
  | append_singleton calls call ih =>
    rw [List.foldl_append]
    exact ih.run call

end Answer

section Payloads

/-- The context after `names` were listed, the first byte being left for the count. -/
private def Listed (first : UInt8) (names : List (List UInt8)) (lc : ListCtx) : Prop :=
  Written lc.buf lc.offset (first :: names.flatMap nameBytes) ∧
    lc.cap = MON_RESPONSE_PAYLOAD_MAX ∧ lc.count.toNat = names.length

private theorem listed_step {first : UInt8} {names : List (List UInt8)} {lc : ListCtx}
    (h : Listed first names lc) {name : List UInt8} (hname : name.length ≤ 255)
    (hfit : lc.offset + (name.length + 1) ≤ MON_RESPONSE_PAYLOAD_MAX)
    (hcount : names.length < 255) : Listed first (names ++ [name]) (listUserCb lc name) := by
  obtain ⟨hw, hcap, hnum⟩ := h
  have hmin : min name.length 255 = name.length := Nat.min_eq_left hname
  have hroom : lc.offset + name.length + 1 ≤ lc.cap := by
    rw [hcap]
    omega
  have hmore : lc.count < 255 := by
    rw [UInt8.lt_iff_toNat_lt, hnum]
    exact hcount
  have h₁ := store_written hw [UInt8.ofNat name.length] List.length_singleton (by omega)
  have h₂ := store_written h₁ name rfl (by omega)
  simp only [listUserCb, hmin, if_pos hroom, if_pos hmore, List.take_length]
  refine ⟨?_, hcap, ?_⟩
  · simpa [nameBytes] using h₂
  · have hone : (1 : UInt8).toNat = 1 := rfl
    rw [UInt8.toNat_add, hone, hnum, List.length_append, List.length_singleton]
    omega

private theorem listed_all {first : UInt8} (more : List (List UInt8)) {names : List (List UInt8)}
    {lc : ListCtx} (h : Listed first names lc) (hlen : ∀ name ∈ more, name.length ≤ 255)
    (hcount : names.length + more.length ≤ MAX_USERS) (hoff : lc.offset ≤ 1 + 256 * names.length) :
    Listed first (names ++ more) (more.foldl listUserCb lc) := by
  induction more generalizing names lc with
  | nil =>
    rw [List.append_nil]
    exact h
  | cons name more ih =>
    have hname := hlen name List.mem_cons_self
    rw [List.length_cons] at hcount
    have hmax : MAX_USERS = 10 := rfl
    have hcap : MON_RESPONSE_PAYLOAD_MAX = 4092 := rfl
    have hstep := listed_step h hname (by omega) (by omega)
    have hnext : (names ++ [name]).length = names.length + 1 := by
      rw [List.length_append, List.length_singleton]
    have hgrow : (listUserCb lc name).offset ≤ 1 + 256 * (names ++ [name]).length := by
      have h₁ := hstep.1.2.1
      have h₂ := h.1.2.1
      simp only [List.flatMap_append, List.flatMap_singleton, List.length_cons, List.length_append,
        nameBytes_length] at h₁ h₂
      omega
    have hall := ih hstep (fun n hn => hlen n (List.mem_cons_of_mem _ hn)) (by omega) hgrow
    rw [List.append_assoc, List.singleton_append] at hall
    exact hall

/-- LIST_USERS writes the count and every name. -/
theorem listUsers_payload {s : Server} (hs : s.Sound) :
    ∃ lc, userTableList s.users listUserCb (listCtxInit s) = lc ∧
      (lc.buf.set 0 lc.count).length = MON_RESPONSE_PAYLOAD_MAX ∧
      lc.offset ≤ MON_RESPONSE_PAYLOAD_MAX ∧
      (lc.buf.set 0 lc.count).take lc.offset = usersPayload s.users := by
  have hstack : s.stack.toList.length = MON_RESPONSE_PAYLOAD_MAX := Vector.length_toList
  obtain ⟨first, rest, hfirst⟩ : ∃ first rest, s.stack.toList = first :: rest := by
    cases h : s.stack.toList with
    | nil => rw [h] at hstack; exact absurd hstack (by decide)
    | cons first rest => exact ⟨first, rest, rfl⟩
  have hstart : Listed first [] (listCtxInit s) :=
    ⟨⟨hstack, rfl, by rw [listCtxInit, hfirst]; rfl⟩, rfl, rfl⟩
  have hnames := userNames_length s.users
  have hlist := listed_all (userNames s.users) hstart hs.names.length_le (by simpa using hnames)
    (by simp [listCtxInit])
  rw [List.nil_append] at hlist
  rw [userTableList_eq]
  refine ⟨_, rfl, ?_, ?_, ?_⟩
  · rw [List.length_set]
    exact hlist.1.1
  · have hlen := congrArg List.length hlist.1.2.2
    rw [List.length_take, hlist.1.1, ← hlist.1.2.1] at hlen
    omega
  · obtain ⟨⟨-, -, htake⟩, -, hcount⟩ := hlist
    rw [List.take_set, htake, List.set_cons_zero, usersPayload, ← hcount, UInt8.ofNat_toNat]

/-- Accepting a log of a sound state never leaves the array. -/
theorem log_payload {s : Server} (hs : s.Sound) :
    ∃ payload off, accessLogPayload s.log s.stack.toList = some (payload, off) ∧
      payload.length = MON_RESPONSE_PAYLOAD_MAX ∧ off ≤ MON_RESPONSE_PAYLOAD_MAX := by
  obtain ⟨kept, payload, -, hpayload, hw, hfit, -⟩ :=
    @accessLogPayload_spec _ hs.log s.stack.toList Vector.length_toList
  exact ⟨payload, _, hpayload, hw.1, hfit⟩

end Payloads

section Response

/-- Nothing is stored and the whole array is free. -/
def Ready (b : Buffer) : Prop :=
  bufferReadPtr b = [] ∧ bufferWritePtr b = MON_IO_BUF_SIZE ∧ bufferLimit b = MON_IO_BUF_SIZE

/-- A response that fits is stored as its frame. -/
theorem sendResponse_spec {conn : MonConn} (hready : Ready conn.writeBuffer) (status : UInt8)
    (payload : Option (List UInt8)) (len : UInt16)
    (hback : MonResponse.Backed ⟨MON_VERSION, status, len, payload⟩)
    (hfit : len.toNat ≤ MON_RESPONSE_PAYLOAD_MAX) :
    ∃ wb, sendResponse conn status payload len = { conn with writeBuffer := wb } ∧
      bufferReadPtr wb = monFrame status (MonResponse.bytes ⟨MON_VERSION, status, len, payload⟩) ∧
      bufferLimit wb = MON_IO_BUF_SIZE := by
  obtain ⟨hempty, hroom, hlimit⟩ := hready
  have hencode := monResponseEncode_eq hback rfl (bufferWritePtr conn.writeBuffer)
  rw [if_pos] at hencode
  · unfold sendResponse
    dsimp only
    split
    next h => exact absurd (h.symm.trans hencode) (by simp)
    next bytes h =>
      obtain rfl := Option.some.inj (h.symm.trans hencode)
      rw [if_pos (by rw [monFrame_length]; unfold MON_RESPONSE_HEADER_LEN; omega)]
      refine ⟨_, rfl, ?_, ?_⟩
      · rw [bufferReadPtr_put, hempty, List.nil_append]
      · rw [bufferLimit_put, hlimit]
  · rw [hroom]
    unfold MON_RESPONSE_PAYLOAD_MAX at hfit
    have hcap : MON_RESPONSE_HEADER_LEN ≤ MON_IO_BUF_SIZE := by decide
    dsimp only
    omega

theorem sendResponse_empty {conn : MonConn} (hready : Ready conn.writeBuffer) (status : UInt8) :
    ∃ wb, sendResponse conn status none 0 = { conn with writeBuffer := wb } ∧
      bufferReadPtr wb = monFrame status [] ∧ bufferLimit wb = MON_IO_BUF_SIZE :=
  sendResponse_spec hready status none 0 (fun h => absurd h (Nat.lt_irrefl 0)) (by decide)

theorem sendResponse_payload {conn : MonConn} (hready : Ready conn.writeBuffer) (status : UInt8)
    {payload : List UInt8} {off : ℕ} (hoff : off ≤ payload.length)
    (hfit : off ≤ MON_RESPONSE_PAYLOAD_MAX) :
    ∃ wb, sendResponse conn status (some payload) (UInt16.ofNat off) =
        { conn with writeBuffer := wb } ∧
      bufferReadPtr wb = monFrame status (payload.take off) ∧ bufferLimit wb = MON_IO_BUF_SIZE := by
  have hnat : (UInt16.ofNat off).toNat = off := by
    have hmax : MON_RESPONSE_PAYLOAD_MAX = 4092 := rfl
    rw [UInt16.toNat_ofNat']
    omega
  obtain ⟨wb, hsend, hread, hlimit⟩ := sendResponse_spec hready status (some payload)
    (UInt16.ofNat off) (fun _ => ⟨payload, rfl, by rw [hnat]; exact hoff⟩) (by omega)
  refine ⟨wb, hsend, ?_, hlimit⟩
  rw [hread, MonResponse.bytes, hnat]

end Response

section Process

variable {conn : MonConn} {cmd : UInt8} {args : List (List UInt8)}

/-- The strings of a parsed request are those of its arguments. -/
theorem argString_parsed (h : Parsed cmd args conn.parser) {i : ℕ} (hi : i < MON_MAX_ARGS)
    {a : List UInt8} (ha : args[i]? = some a) :
    argString conn.parser.request i hi = cString a := by
  obtain ⟨-, v, -, -, hv, hw⟩ := h.stored i a ha
  rw [Vector.getElem?_eq_getElem hi, Option.some.injEq] at hv
  rw [argString, hv, hw.cString_eq]

private theorem nargs_lt_iff (h : Parsed cmd args conn.parser) (n : UInt8) :
    conn.parser.request.nargs < n ↔ args.length < n.toNat := by
  rw [UInt8.lt_iff_toNat_lt, h.nargs_eq]

/-- The response buffer after an answer. -/
def Responded (a : Answer) (conn : MonConn) (r : Server × MonConn) : Prop :=
  ∃ wb, r = (a.server, { conn with authenticated := a.authenticated, writeBuffer := wb }) ∧
    bufferReadPtr wb = monFrame a.status a.payload ∧ bufferLimit wb = MON_IO_BUF_SIZE

private theorem responded_empty (hready : Ready conn.writeBuffer) (s : Server)
    {authenticated : Bool} (hauth : conn.authenticated = authenticated) (status : UInt8) :
    Responded ⟨s, authenticated, status, []⟩ conn (s, sendResponse conn status none 0) := by
  obtain ⟨wb, hsend, hread, hlimit⟩ := sendResponse_empty hready status
  exact ⟨wb, by rw [hsend, ← hauth], hread, hlimit⟩

private theorem responded_payload (hready : Ready conn.writeBuffer) (s : Server)
    {authenticated : Bool} (hauth : conn.authenticated = authenticated) (status : UInt8)
    {payload : List UInt8} {off : ℕ} (hoff : off ≤ payload.length)
    (hfit : off ≤ MON_RESPONSE_PAYLOAD_MAX) :
    Responded ⟨s, authenticated, status, payload.take off⟩ conn
      (s, sendResponse conn status (some payload) (UInt16.ofNat off)) := by
  obtain ⟨wb, hsend, hread, hlimit⟩ := sendResponse_payload hready status hoff hfit
  exact ⟨wb, by rw [hsend, ← hauth], hread, hlimit⟩

private theorem responded_auth (hready : Ready conn.writeBuffer) (s : Server)
    (hp : Parsed MON_CMD_AUTH args conn.parser) :
    Responded (answer s conn.authenticated MON_CMD_AUTH args) conn (monProcessRequest s conn) := by
  simp only [monProcessRequest, answer, hp.cmd_eq, ne_eq, not_true_eq_false, and_false, if_false,
    if_true]
  match args, hp with
  | [], hp =>
    rw [if_pos (Or.inl ((nargs_lt_iff hp 2).mpr (by simp)))]
    exact responded_empty hready s rfl _
  | [_], hp =>
    rw [if_pos (Or.inl ((nargs_lt_iff hp 2).mpr (by simp)))]
    exact responded_empty hready s rfl _
  | name :: pass :: rest, hp =>
    have hname : firstArg conn.parser.request = cString name := argString_parsed hp _ rfl
    have hpass : secondArg conn.parser.request = cString pass := argString_parsed hp _ rfl
    have hnargs : ¬ conn.parser.request.nargs < 2 := by
      rw [nargs_lt_iff hp 2]
      simp
    rw [hname, hpass]
    dsimp only
    cases hlookup : userTableLookup s.users (cString name) (cString pass) with
    | true =>
      obtain ⟨wb, hsend, hread, hlimit⟩ :=
        @sendResponse_empty { conn with authenticated := true } hready MON_STATUS_OK
      rw [if_pos rfl, if_neg (by simp [hnargs])]
      exact ⟨wb, by rw [hsend], hread, hlimit⟩
    | false =>
      rw [if_neg Bool.false_ne_true, if_pos (Or.inr Bool.false_ne_true)]
      exact responded_empty hready s rfl _

private theorem responded_add (hready : Ready conn.writeBuffer) (s : Server)
    (hauth : conn.authenticated = true) (hp : Parsed MON_CMD_ADD_USER args conn.parser) :
    Responded (answer s conn.authenticated MON_CMD_ADD_USER args) conn
      (monProcessRequest s conn) := by
  have hcmd : MON_CMD_ADD_USER ≠ MON_CMD_AUTH := by decide
  simp only [monProcessRequest, answer, hp.cmd_eq, hauth, Bool.true_eq_false, false_and, if_false,
    if_neg hcmd, if_true]
  match args, hp with
  | [], hp =>
    rw [if_pos ((nargs_lt_iff hp 2).mpr (by simp))]
    exact responded_empty hready s hauth _
  | [_], hp =>
    rw [if_pos ((nargs_lt_iff hp 2).mpr (by simp))]
    exact responded_empty hready s hauth _
  | name :: pass :: rest, hp =>
    have hname : firstArg conn.parser.request = cString name := argString_parsed hp _ rfl
    have hpass : secondArg conn.parser.request = cString pass := argString_parsed hp _ rfl
    have hnargs : ¬ conn.parser.request.nargs < 2 := by
      rw [nargs_lt_iff hp 2]
      simp
    rw [hname, hpass, if_neg hnargs]
    dsimp only
    obtain ⟨added, users⟩ := userTableAdd s.users (cString name) (cString pass)
    cases added with
    | true => exact responded_empty hready { s with users := users } hauth _
    | false => exact responded_empty hready { s with users := users } hauth _

private theorem responded_del (hready : Ready conn.writeBuffer) (s : Server)
    (hauth : conn.authenticated = true) (hp : Parsed MON_CMD_DEL_USER args conn.parser) :
    Responded (answer s conn.authenticated MON_CMD_DEL_USER args) conn
      (monProcessRequest s conn) := by
  have hcmd : MON_CMD_DEL_USER ≠ MON_CMD_AUTH := by decide
  have hcmd' : MON_CMD_DEL_USER ≠ MON_CMD_ADD_USER := by decide
  simp only [monProcessRequest, answer, hp.cmd_eq, hauth, Bool.true_eq_false, false_and, if_false,
    if_neg hcmd, if_neg hcmd', if_true]
  match args, hp with
  | [], hp =>
    rw [if_pos ((nargs_lt_iff hp 1).mpr (by simp))]
    exact responded_empty hready s hauth _
  | name :: rest, hp =>
    have hname : firstArg conn.parser.request = cString name := argString_parsed hp _ rfl
    have hnargs : ¬ conn.parser.request.nargs < 1 := by
      rw [nargs_lt_iff hp 1]
      simp
    rw [hname, if_neg hnargs]
    dsimp only
    obtain ⟨removed, users⟩ := userTableRemove s.users (cString name)
    cases removed with
    | true => exact responded_empty hready { s with users := users } hauth _
    | false => exact responded_empty hready { s with users := users } hauth _

private theorem metrics_responded (hready : Ready conn.writeBuffer) (s : Server)
    {authenticated : Bool} (hauth : conn.authenticated = authenticated) :
    Responded ⟨s, authenticated, MON_STATUS_OK, metricsPayload s.metrics⟩ conn
      (s, sendResponse conn MON_STATUS_OK (some (metricsPayload s.metrics))
        MON_METRICS_PAYLOAD_LEN) := by
  have hlen : (metricsPayload s.metrics).length = 24 := by
    simp only [metricsPayload, List.length_append, putBe_length]
  have hall := responded_payload hready s hauth MON_STATUS_OK (Nat.le_of_eq hlen.symm)
    (by decide)
  rw [List.take_of_length_le (Nat.le_of_eq hlen)] at hall
  exact hall

/-- On a connection that has not authenticated nothing of the server is read but
the user that a login names. -/
theorem monProcessRequest_gate {s : Server} (hready : Ready conn.writeBuffer)
    (hp : Parsed cmd args conn.parser) (hgate : conn.authenticated = false) :
    Responded (answer s conn.authenticated cmd args) conn (monProcessRequest s conn) := by
  by_cases hauth : cmd = MON_CMD_AUTH
  · subst hauth
    exact responded_auth hready s hp
  · simp only [monProcessRequest, answer, hp.cmd_eq, hgate, ne_eq, hauth, not_false_eq_true,
      and_self, if_true]
    exact responded_empty hready s hgate _

/-- mon_process_request stores the frame of the answer, and changes nothing else
of the connection. -/
theorem monProcessRequest_answer {s : Server} (hs : s.Sound) (hready : Ready conn.writeBuffer)
    (hp : Parsed cmd args conn.parser) :
    Responded (answer s conn.authenticated cmd args) conn (monProcessRequest s conn) := by
  cases hgate : conn.authenticated with
  | false =>
    rw [← hgate]
    exact monProcessRequest_gate hready hp hgate
  | true =>
    by_cases hauth : cmd = MON_CMD_AUTH
    · subst hauth
      rw [← hgate]
      exact responded_auth hready s hp
    by_cases hadd : cmd = MON_CMD_ADD_USER
    · subst hadd
      rw [← hgate]
      exact responded_add hready s hgate hp
    by_cases hdel : cmd = MON_CMD_DEL_USER
    · subst hdel
      rw [← hgate]
      exact responded_del hready s hgate hp
    simp only [monProcessRequest, answer, hp.cmd_eq, hgate, Bool.true_eq_false, false_and, if_false,
      hauth, hadd, hdel]
    by_cases hlist : cmd = MON_CMD_LIST_USERS
    · obtain ⟨lc, hlc, hlen, hoff, htake⟩ := listUsers_payload hs
      rw [if_pos hlist, if_pos hlist, hlc, ← htake]
      exact responded_payload hready s hgate _ (by omega) hoff
    rw [if_neg hlist, if_neg hlist]
    by_cases hmetrics : cmd = MON_CMD_GET_METRICS
    · rw [if_pos hmetrics, if_pos hmetrics]
      exact metrics_responded hready s hgate
    rw [if_neg hmetrics, if_neg hmetrics]
    by_cases hlog : cmd = MON_CMD_GET_ACCESS_LOG
    · obtain ⟨payload, off, hpayload, hlen, hoff⟩ := log_payload hs
      rw [if_pos hlog, if_pos hlog, logPayload, hpayload]
      exact responded_payload hready s hgate _ (by omega) hoff
    rw [if_neg hlog, if_neg hlog]
    exact responded_empty hready s hgate _

end Process

end SocksProxy.MonServer
