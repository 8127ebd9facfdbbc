import Mathlib.Algebra.Order.BigOperators.Group.List
import SocksProxy.Kernel
import SocksProxy.MonLoop
import SocksProxy.Stm

/-!
mon_client.c: the command line client. It connects, sends AUTH and reads the
response, sends the command and reads its response, prints it and leaves an exit
code.
-/
namespace SocksProxy.CliClient

open ByteBuffer Kernel Stm MonProtocol MonFormat
open MonLoop (MonInterest)

def MON_EXIT_OK : ℕ := 0
def MON_EXIT_IO : ℕ := 2
def MON_EXIT_AUTH : ℕ := 3
def MON_EXIT_CMD : ℕ := 4
def MON_EXIT_MALFORMED : ℕ := 5

def MON_READ_BUF_SIZE : ℕ := MON_RESPONSE_HEADER_LEN + 65536
def MON_WRITE_BUF_SIZE : ℕ := 1024

/-- `enum client_cmd`. -/
inductive ClientCmd
  | none
  | metrics
  | listUsers
  | addUser
  | delUser
  | accessLog
  deriving DecidableEq

/-- The strings and the command of `struct client_args`. -/
structure ClientArgs where
  username : List UInt8
  password : List UInt8
  cmd : ClientCmd
  argUser : List UInt8
  argPass : List UInt8
  deriving DecidableEq

/-- `enum mon_state`. -/
inductive ClientState
  | connecting
  | sendAuth
  | recvAuth
  | sendCmd
  | recvCmd
  | done
  | error
  deriving DecidableEq

/-- What goes to stdout. -/
inductive Printed
  | metrics (historic current bytes : UInt64)
  | users (names : List (List UInt8))
  | accessLog (rows : List LogRow)
  | added (name : List UInt8)
  | deleted (name : List UInt8)
  deriving DecidableEq

/-- `struct mon_client`; `current` is that of its state machine. -/
structure MonClient where
  args : ClientArgs
  current : Option ClientState
  readBuffer : Buffer
  writeBuffer : Buffer
  finished : Bool
  connectFailed : Bool
  result : ℕ
  printed : Option Printed

def monClientInit (args : ClientArgs) : MonClient where
  args := args
  current := none
  readBuffer := bufferInit MON_READ_BUF_SIZE
  writeBuffer := bufferInit MON_WRITE_BUF_SIZE
  finished := false
  connectFailed := false
  result := MON_EXIT_OK
  printed := none

/-- The client and its registration. `sent` and `received` record what went
through its socket; the code does not look at them. -/
structure ClientKey where
  client : MonClient
  interest : MonInterest
  sent : List UInt8
  received : List UInt8

/-- The kernel's answers during one event. -/
structure ClientSys where
  soError : Bool
  write : WriteResult
  read : ReadResult

section Requests

theorem noArgs_le : (0 : UInt8).toNat ≤ MON_MAX_ARGS := by decide

theorem oneArg_le : (1 : UInt8).toNat ≤ MON_MAX_ARGS := by decide

theorem twoArgs_le : (2 : UInt8).toNat ≤ MON_MAX_ARGS := by decide

theorem firstArg_lt : 0 < MON_MAX_ARGS := by decide

theorem secondArg_lt : 1 < MON_MAX_ARGS := by decide

/-- fill_arg: memcpy and a final NUL; `none` for a string that is too long. -/
def fillArg (r : MonRequest) (idx : ℕ) (h : idx < MON_MAX_ARGS) (s : List UInt8) :
    Option MonRequest :=
  if s.length > MON_MAX_ARG_LEN then none
  else
    some { r with
      argLens := r.argLens.set idx (UInt8.ofNat s.length)
      args := r.args.set idx (Vector.ofFn fun i : Fin 256 =>
        if i.val < s.length then s.getD i.val 0
        else if i.val = s.length then 0 else r.args[idx][i.val]) }

/-- A zeroed request with its version, command and count. -/
def zeroRequest (cmd nargs : UInt8) (h : nargs.toNat ≤ MON_MAX_ARGS) : MonRequest where
  version := MON_VERSION
  cmd := cmd
  nargs := nargs
  argLens := Vector.replicate _ 0
  args := Vector.replicate _ (Vector.replicate _ 0)
  nargs_le := h

def buildAuthRequest (a : ClientArgs) : Option MonRequest := do
  let req ← fillArg (zeroRequest MON_CMD_AUTH 2 twoArgs_le) 0 firstArg_lt a.username
  fillArg req 1 secondArg_lt a.password

def buildCmdRequest (a : ClientArgs) : Option MonRequest :=
  match a.cmd with
  | .metrics => some (zeroRequest MON_CMD_GET_METRICS 0 noArgs_le)
  | .listUsers => some (zeroRequest MON_CMD_LIST_USERS 0 noArgs_le)
  | .accessLog => some (zeroRequest MON_CMD_GET_ACCESS_LOG 0 noArgs_le)
  | .addUser => do
    let req ← fillArg (zeroRequest MON_CMD_ADD_USER 2 twoArgs_le) 0 firstArg_lt a.argUser
    fillArg req 1 secondArg_lt a.argPass
  | .delUser => fillArg (zeroRequest MON_CMD_DEL_USER 1 oneArg_le) 0 firstArg_lt a.argUser
  | .none => none

def queueRequest (c : MonClient) (req : MonRequest) : Option MonClient :=
  match monRequestEncode req (3 + MON_MAX_ARGS * (1 + MON_MAX_ARG_LEN)) with
  | none => none
  | some tmp =>
    if h : tmp.length ≤ bufferWritePtr c.writeBuffer then
      some { c with writeBuffer := bufferPut c.writeBuffer tmp h }
    else none

/-- The array of an argument. -/
theorem filled_take {s : List UInt8} (h : s.length ≤ 255) (old : Vector UInt8 256) :
    (Vector.ofFn fun i : Fin 256 =>
      if i.val < s.length then s.getD i.val 0
      else if i.val = s.length then 0 else old[i.val]).toList.take s.length = s := by
  apply List.ext_getElem?
  intro i
  by_cases hi : i < s.length
  · have hlt : i < 256 := by omega
    rw [List.getElem?_take_of_lt hi, Vector.getElem?_toList, Vector.getElem?_eq_getElem hlt]
    simp [hi]
  · rw [List.getElem?_take_eq_none (by omega), List.getElem?_eq_none (by omega)]

theorem toNat_length {s : List UInt8} (h : s.length ≤ 255) :
    (UInt8.ofNat s.length).toNat = s.length := by
  rw [UInt8.toNat_ofNat']
  omega

theorem data_one {r : MonRequest} {s : List UInt8} {v w : Vector UInt8 256} {n : UInt8}
    (hn : r.nargs = 1) (hlens : r.argLens = #v[UInt8.ofNat s.length, n]) (hargs : r.args = #v[v, w])
    (h : s.length ≤ 255) (hv : v.toList.take s.length = s) : r.data = [s] := by
  rw [MonRequest.data, MonRequest.lens, hlens, hargs, hn]
  change [v.toList.take (UInt8.ofNat s.length).toNat] = [s]
  rw [toNat_length h, hv]

theorem data_two {r : MonRequest} {s t : List UInt8} {v w : Vector UInt8 256} (hn : r.nargs = 2)
    (hlens : r.argLens = #v[UInt8.ofNat s.length, UInt8.ofNat t.length]) (hargs : r.args = #v[v, w])
    (hs : s.length ≤ 255) (ht : t.length ≤ 255)
    (hv : v.toList.take s.length = s) (hw : w.toList.take t.length = t) : r.data = [s, t] := by
  rw [MonRequest.data, MonRequest.lens, hlens, hargs, hn]
  change [v.toList.take (UInt8.ofNat s.length).toNat, w.toList.take (UInt8.ofNat t.length).toNat] =
    [s, t]
  rw [toNat_length hs, toNat_length ht, hv, hw]

/-- A string that fits is stored with its length. -/
theorem fillArg_eq {r : MonRequest} {idx : ℕ} (h : idx < MON_MAX_ARGS) {s : List UInt8}
    (hs : s.length ≤ 255) :
    ∃ v r', fillArg r idx h s = some r' ∧ r'.version = r.version ∧ r'.cmd = r.cmd ∧
      r'.nargs = r.nargs ∧ r'.argLens = r.argLens.set idx (UInt8.ofNat s.length) ∧
      r'.args = r.args.set idx v ∧ v.toList.take s.length = s :=
  ⟨_, _, if_neg (Nat.not_lt.mpr hs), rfl, rfl, rfl, rfl, rfl, filled_take hs r.args[idx]⟩

/-- A request with one argument. -/
theorem fillArg_one (cmd : UInt8) {s : List UInt8} (h : s.length ≤ 255) :
    ∃ r, fillArg (zeroRequest cmd 1 (by decide)) 0 (by decide) s = some r ∧
      r.version = MON_VERSION ∧ r.cmd = cmd ∧ r.data = [s] := by
  obtain ⟨v, r, hr, hversion, hcmd, hnargs, hlens, hargs, hv⟩ :=
    @fillArg_eq (zeroRequest cmd 1 (by decide)) 0 (by decide) s h
  exact ⟨r, hr, hversion, hcmd, data_one hnargs hlens hargs h hv⟩

/-- A request with two arguments. -/
theorem fillArg_two (cmd : UInt8) {s t : List UInt8} (hs : s.length ≤ 255) (ht : t.length ≤ 255) :
    ∃ r, (fillArg (zeroRequest cmd 2 (by decide)) 0 (by decide) s).bind
        (fun r => fillArg r 1 (by decide) t) = some r ∧
      r.version = MON_VERSION ∧ r.cmd = cmd ∧ r.data = [s, t] := by
  obtain ⟨v, q, hq, hversion, hcmd, hnargs, hlens, hargs, hv⟩ :=
    @fillArg_eq (zeroRequest cmd 2 (by decide)) 0 (by decide) s hs
  obtain ⟨w, r, hr, hversion', hcmd', hnargs', hlens', hargs', hw⟩ :=
    @fillArg_eq q 1 (by decide) t ht
  rw [hlens] at hlens'
  rw [hargs] at hargs'
  rw [hq, Option.bind_some]
  exact ⟨r, hr, hversion'.trans hversion, hcmd'.trans hcmd,
    data_two (hnargs'.trans hnargs) hlens' hargs' hs ht hv hw⟩

/-- The selected command as it goes on the wire; without one there is no request. -/
def ClientArgs.command (a : ClientArgs) : Option (UInt8 × List (List UInt8)) :=
  match a.cmd with
  | .metrics => some (MON_CMD_GET_METRICS, [])
  | .listUsers => some (MON_CMD_LIST_USERS, [])
  | .accessLog => some (MON_CMD_GET_ACCESS_LOG, [])
  | .addUser => some (MON_CMD_ADD_USER, [a.argUser, a.argPass])
  | .delUser => some (MON_CMD_DEL_USER, [a.argUser])
  | .none => none

/-- The strings are NUL-free and fit. -/
def ClientArgs.Plain (a : ClientArgs) : Prop :=
  ∀ s ∈ [a.username, a.password, a.argUser, a.argPass], s.length ≤ 255 ∧ 0 ∉ s

theorem buildAuthRequest_eq {a : ClientArgs} (h : a.Plain) :
    ∃ r, buildAuthRequest a = some r ∧ r.version = MON_VERSION ∧ r.cmd = MON_CMD_AUTH ∧
      r.data = [a.username, a.password] :=
  fillArg_two MON_CMD_AUTH (h a.username (by simp)).1 (h a.password (by simp)).1

theorem buildCmdRequest_eq {a : ClientArgs} (h : a.Plain) {cmd : UInt8} {args : List (List UInt8)}
    (hcmd : a.command = some (cmd, args)) :
    ∃ r, buildCmdRequest a = some r ∧ r.version = MON_VERSION ∧ r.cmd = cmd ∧ r.data = args := by
  have huser := (h a.argUser (by simp)).1
  have hpass := (h a.argPass (by simp)).1
  unfold ClientArgs.command at hcmd
  unfold buildCmdRequest
  cases hsel : a.cmd with
  | none => simp [hsel] at hcmd
  | metrics =>
    simp only [hsel, Option.some.injEq, Prod.mk.injEq] at hcmd
    obtain ⟨rfl, rfl⟩ := hcmd
    exact ⟨_, rfl, rfl, rfl, rfl⟩
  | listUsers =>
    simp only [hsel, Option.some.injEq, Prod.mk.injEq] at hcmd
    obtain ⟨rfl, rfl⟩ := hcmd
    exact ⟨_, rfl, rfl, rfl, rfl⟩
  | accessLog =>
    simp only [hsel, Option.some.injEq, Prod.mk.injEq] at hcmd
    obtain ⟨rfl, rfl⟩ := hcmd
    exact ⟨_, rfl, rfl, rfl, rfl⟩
  | addUser =>
    simp only [hsel, Option.some.injEq, Prod.mk.injEq] at hcmd
    obtain ⟨rfl, rfl⟩ := hcmd
    exact fillArg_two MON_CMD_ADD_USER huser hpass
  | delUser =>
    simp only [hsel, Option.some.injEq, Prod.mk.injEq] at hcmd
    obtain ⟨rfl, rfl⟩ := hcmd
    exact fillArg_one MON_CMD_DEL_USER huser

theorem ClientArgs.Plain.command_length {a : ClientArgs} (h : a.Plain) {cmd : UInt8}
    {args : List (List UInt8)} (hcmd : a.command = some (cmd, args)) :
    args.length ≤ MON_MAX_ARGS ∧ ∀ s ∈ args, s.length ≤ 255 := by
  have huser := (h a.argUser (by simp)).1
  have hpass := (h a.argPass (by simp)).1
  unfold ClientArgs.command at hcmd
  cases hsel : a.cmd <;> simp only [hsel, Option.some.injEq, Prod.mk.injEq, reduceCtorEq] at hcmd <;>
    obtain ⟨rfl, rfl⟩ := hcmd <;> simp [MON_MAX_ARGS, huser, hpass]

theorem monMessage_length_le (cmd : UInt8) {args : List (List UInt8)}
    (hcount : args.length ≤ MON_MAX_ARGS) (hargs : ∀ a ∈ args, a.length ≤ 255) :
    (monMessage cmd args).length ≤ 3 + MON_MAX_ARGS * (1 + MON_MAX_ARG_LEN) := by
  have hsum : args.flatten.length ≤ args.length * 255 := by
    rw [List.length_flatten]
    refine (List.sum_le_card_nsmul _ 255 ?_).trans (by simp)
    intro n hn
    obtain ⟨a, ha, rfl⟩ := List.mem_map.mp hn
    exact hargs a ha
  simp only [monMessage, List.length_append, List.length_cons, List.length_nil, List.length_map]
  unfold MON_MAX_ARGS MON_MAX_ARG_LEN at *
  omega

/-- Nothing is stored and all of the `n` bytes are free. -/
structure Fresh (b : Buffer) (n : ℕ) : Prop where
  contents : bufferReadPtr b = []
  room : bufferWritePtr b = n
  limit : bufferLimit b = n

theorem fresh_init (n : ℕ) : Fresh (bufferInit n) n :=
  ⟨bufferReadPtr_init n, bufferWritePtr_init n, bufferLimit_init n⟩

/-- A buffer that is read to its end is fresh again. -/
theorem fresh_readAdv {b : Buffer} {n k : ℕ} (h : ((k : ℕ) : ℤ).toNat ≤ (bufferReadPtr b).length)
    (hk : k = (bufferReadPtr b).length) (hlimit : bufferLimit b = n) :
    Fresh (bufferReadAdv b k h) n where
  contents := by rw [bufferReadPtr_readAdv, hk, List.drop_length]
  room := by rw [bufferWritePtr_readAdv, if_pos hk, hlimit]
  limit := by rw [bufferLimit_readAdv, hlimit]

theorem queueRequest_eq {c : MonClient} (hfresh : Fresh c.writeBuffer MON_WRITE_BUF_SIZE)
    {r : MonRequest} (hv : r.version = MON_VERSION) (hargs : ∀ a ∈ r.data, a.length ≤ 255) :
    ∃ wb, queueRequest c r = some { c with writeBuffer := wb } ∧
      bufferReadPtr wb = monMessage r.cmd r.data ∧ bufferLimit wb = MON_WRITE_BUF_SIZE := by
  have hcount : r.data.length ≤ MON_MAX_ARGS := by
    rw [r.data_length]
    exact r.nargs_le
  have hlen := monMessage_length_le r.cmd hcount hargs
  have hfit : (monMessage r.cmd r.data).length ≤ bufferWritePtr c.writeBuffer := by
    rw [hfresh.room]
    exact hlen.trans (by decide)
  refine ⟨bufferPut c.writeBuffer (monMessage r.cmd r.data) hfit, ?_, ?_, ?_⟩
  · rw [queueRequest, monRequestEncode_eq r hv, if_pos hlen]
    exact dif_pos hfit
  · rw [bufferReadPtr_put, hfresh.contents, List.nil_append]
  · rw [bufferLimit_put, hfresh.limit]

end Requests

section Handlers

/-- The state and the result of a failure. -/
def fails (k : ClientKey) (result : ℕ) : ClientState × ClientKey :=
  (.error, { k with client := { k.client with result := result } })

def onConnecting (sys : ClientSys) (k : ClientKey) : ClientState × ClientKey :=
  if sys.soError then (.error, { k with client := { k.client with connectFailed := true } })
  else
    match (buildAuthRequest k.client.args).bind (queueRequest k.client) with
    | none => fails k MON_EXIT_IO
    | some c => (.sendAuth, { k with client := c })

/-- The fd is registered, so selector_set_interest_key succeeds. -/
def sendBuffer (sys : ClientSys) (self next : ClientState) (k : ClientKey) :
    ClientState × ClientKey :=
  match sysWrite (bufferReadPtr k.client.writeBuffer).length sys.write with
  | .error .again => (self, k)
  | .error .fail => fails k MON_EXIT_IO
  | .ok ⟨n, h⟩ =>
    let wb := bufferReadAdv k.client.writeBuffer n h
    let k := { k with
      client := { k.client with writeBuffer := wb }
      sent := k.sent ++ (bufferReadPtr k.client.writeBuffer).take n }
    if bufferCanRead wb then (self, k) else (next, { k with interest := .opRead })

def onAuthOk (k : ClientKey) (resp : MonResponse) : ClientState × ClientKey :=
  if resp.status ≠ MON_STATUS_OK then fails k MON_EXIT_AUTH
  else
    match (buildCmdRequest k.client.args).bind (queueRequest k.client) with
    | none => fails k MON_EXIT_IO
    | some c => (.sendCmd, { k with client := c, interest := .opWrite })

/-- What the formatter of the command prints, and whether it found the payload
well formed. -/
def formatPayload (a : ClientArgs) (resp : MonResponse) : Option Printed × Bool :=
  match a.cmd with
  | .metrics =>
    match monFormatMetrics resp.slice with
    | some (historic, current, bytes) => (some (.metrics historic current bytes), true)
    | none => (none, false)
  | .listUsers =>
    let (names, ok) := monFormatUsers resp.slice
    (some (.users names), ok)
  | .accessLog =>
    let (rows, ok) := monFormatAccessLog resp.slice
    (some (.accessLog rows), ok)
  | .addUser => (some (.added a.argUser), true)
  | .delUser => (some (.deleted a.argUser), true)
  | .none => (none, false)

def onCmdOk (k : ClientKey) (resp : MonResponse) : ClientState × ClientKey :=
  if resp.status ≠ MON_STATUS_OK then fails k MON_EXIT_CMD
  else
    let (printed, ok) := formatPayload k.client.args resp
    let k := { k with client := { k.client with printed := printed } }
    if ok then (.done, { k with client := { k.client with result := MON_EXIT_OK } })
    else fails k MON_EXIT_MALFORMED

theorem monResponseDecode_consumed {buf : List UInt8} {resp : MonResponse} {consumed : ℕ}
    (h : monResponseDecode buf = .ok resp consumed) : consumed ≤ buf.length :=
  (monResponseDecode_ok h).2.2.2.2.1

def recvResponse (sys : ClientSys) (self : ClientState) (isAuth : Bool) (k : ClientKey) :
    ClientState × ClientKey :=
  if bufferWritePtr k.client.readBuffer = 0 then fails k MON_EXIT_MALFORMED
  else
    match sysRead (bufferWritePtr k.client.readBuffer) sys.read with
    | .error .again => (self, k)
    | .error .fail => fails k MON_EXIT_IO
    | .ok ⟨bytes, h⟩ =>
      if bytes = [] then fails k MON_EXIT_IO
      else
        let rb := bufferPut k.client.readBuffer bytes h
        let k := { k with
          client := { k.client with readBuffer := rb }, received := k.received ++ bytes }
        match hdecode : monResponseDecode (bufferReadPtr rb) with
        | .needMore => (self, k)
        | .error => fails k MON_EXIT_MALFORMED
        | .ok resp consumed =>
          -- the payload stays where it is: the advance moves no byte but behind the last one
          let rb := bufferReadAdv rb consumed (monResponseDecode_consumed hdecode)
          let k := { k with client := { k.client with readBuffer := rb } }
          if isAuth then onAuthOk k resp else onCmdOk k resp

/-- The state table. -/
def clientStates (sys : ClientSys) : StateMachine ClientState ClientKey where
  initial := .connecting
  states
    | .connecting => { onWriteReady := some (onConnecting sys) }
    | .sendAuth => { onWriteReady := some (sendBuffer sys .sendAuth .recvAuth) }
    | .recvAuth => { onReadReady := some (recvResponse sys .recvAuth true) }
    | .sendCmd => { onWriteReady := some (sendBuffer sys .sendCmd .recvCmd) }
    | .recvCmd => { onReadReady := some (recvResponse sys .recvCmd false) }
    | .done => {}
    | .error => {}

/-- mon_finish: the fd leaves the selector and is closed. -/
def monFinish (k : ClientKey) : ClientKey :=
  { k with client := { k.client with finished := true } }

/-- The end of mon_read and of mon_write, with the state that the machine is in. -/
def afterEvent (r : ClientState × ClientKey) : ClientKey :=
  let k := { r.2 with client := { r.2.client with current := some r.1 } }
  if r.1 = .done ∨ r.1 = .error then monFinish k else k

/-- `none` when the state machine aborts. -/
def monRead (sys : ClientSys) (k : ClientKey) : Option ClientKey :=
  (stmHandlerRead (clientStates sys) k.client.current k).map afterEvent

def monWrite (sys : ClientSys) (k : ClientKey) : Option ClientKey :=
  (stmHandlerWrite (clientStates sys) k.client.current k).map afterEvent

/-- The selector calls the handler of what the fd waits for. -/
def dispatch (sys : ClientSys) (k : ClientKey) : Option ClientKey :=
  match k.interest with
  | .opRead => monRead sys k
  | .opWrite => monWrite sys k

end Handlers

section Phases

variable {args : ClientArgs} {k : ClientKey} {sys : ClientSys}

/-- No state has an arrival or a departure callback. -/
theorem jump_client (s t : ClientState) (k : ClientKey) : jump (clientStates sys) s t k = (t, k) := by
  have harrive : arrive (clientStates sys) t k = k := by cases t <;> rfl
  have hdepart : depart (clientStates sys) s k = k := by cases s <;> rfl
  by_cases h : s = t
  · rw [h, jump_self]
  · rw [jump_of_ne _ h, hdepart, harrive]

/-- The states in which the two requests are sent, and their responses read. -/
def sendState (isAuth : Bool) : ClientState := if isAuth then .sendAuth else .sendCmd

def recvState (isAuth : Bool) : ClientState := if isAuth then .recvAuth else .recvCmd

theorem dispatch_connecting (hint : k.interest = .opWrite) (hcurrent : k.client.current = none) :
    dispatch sys k = some (afterEvent (onConnecting sys k)) := by
  simp only [dispatch, hint, monWrite, hcurrent, stmHandlerWrite, handleFirst]
  simp only [clientStates, Option.map_some]
  rw [← clientStates, jump_client]
  rfl

theorem dispatch_send (isAuth : Bool) (hint : k.interest = .opWrite)
    (hcurrent : k.client.current = some (sendState isAuth)) :
    dispatch sys k =
      some (afterEvent (sendBuffer sys (sendState isAuth) (recvState isAuth) k)) := by
  simp only [dispatch, hint, monWrite, hcurrent, stmHandlerWrite, handleFirst]
  cases isAuth <;> simp only [sendState, recvState, clientStates, Option.map_some, if_true,
    Bool.false_eq_true, if_false] <;> rw [← clientStates, jump_client]

theorem dispatch_recv (isAuth : Bool) (hint : k.interest = .opRead)
    (hcurrent : k.client.current = some (recvState isAuth)) :
    dispatch sys k = some (afterEvent (recvResponse sys (recvState isAuth) isAuth k)) := by
  simp only [dispatch, hint, monRead, hcurrent, stmHandlerRead, handleFirst]
  cases isAuth <;> simp only [recvState, clientStates, Option.map_some, if_true,
    Bool.false_eq_true, if_false] <;> rw [← clientStates, jump_client]

/-- Nothing has failed so far. -/
structure Alive (args : ClientArgs) (k : ClientKey) : Prop where
  args_eq : k.client.args = args
  finished : k.client.finished = false
  connectFailed : k.client.connectFailed = false

/-- connect() is under way. -/
structure Connecting (args : ClientArgs) (k : ClientKey) : Prop where
  alive : Alive args k
  current_eq : k.client.current = none
  interest_eq : k.interest = .opWrite
  write_fresh : Fresh k.client.writeBuffer MON_WRITE_BUF_SIZE
  read_fresh : Fresh k.client.readBuffer MON_READ_BUF_SIZE
  sent_eq : k.sent = []
  received_eq : k.received = []

/-- A request is on its way; `wire` is all that will have been sent with it. -/
structure Sending (args : ClientArgs) (isAuth : Bool) (wire : List UInt8) (k : ClientKey) :
    Prop where
  alive : Alive args k
  current_eq : k.client.current = some (sendState isAuth)
  interest_eq : k.interest = .opWrite
  pending : bufferReadPtr k.client.writeBuffer ≠ []
  output : k.sent ++ bufferReadPtr k.client.writeBuffer = wire
  write_limit : bufferLimit k.client.writeBuffer = MON_WRITE_BUF_SIZE
  read_fresh : Fresh k.client.readBuffer MON_READ_BUF_SIZE

/-- The request was sent, and `got` was received of the response. -/
structure Waiting (args : ClientArgs) (isAuth : Bool) (got : List UInt8) (k : ClientKey) :
    Prop where
  alive : Alive args k
  current_eq : k.client.current = some (recvState isAuth)
  interest_eq : k.interest = .opRead
  write_fresh : Fresh k.client.writeBuffer MON_WRITE_BUF_SIZE
  got_eq : bufferReadPtr k.client.readBuffer = got
  room_eq : bufferWritePtr k.client.readBuffer + got.length = MON_READ_BUF_SIZE
  read_limit : bufferLimit k.client.readBuffer = MON_READ_BUF_SIZE

theorem sendState_ne (isAuth : Bool) : ¬ (sendState isAuth = .done ∨ sendState isAuth = .error) := by
  cases isAuth <;> decide

theorem recvState_ne (isAuth : Bool) : ¬ (recvState isAuth = .done ∨ recvState isAuth = .error) := by
  cases isAuth <;> decide

/-- An event that leaves the machine in its state. -/
theorem afterEvent_self {s : ClientState} (hs : ¬ (s = .done ∨ s = .error))
    (hcurrent : k.client.current = some s) : afterEvent (s, k) = k := by
  simp only [afterEvent, if_neg hs]
  rw [← hcurrent]

/-- The connected client has the AUTH request in its buffer. -/
theorem connecting_dispatch (h : Connecting args k) (hplain : args.Plain)
    (hso : sys.soError = false) :
    ∃ k', dispatch sys k = some k' ∧
      Sending args true (monMessage MON_CMD_AUTH [args.username, args.password]) k' ∧
      k'.sent = [] ∧ k'.received = [] := by
  obtain ⟨r, hbuild, hversion, hcmd, hdata⟩ := buildAuthRequest_eq hplain
  have hlen : ∀ a ∈ r.data, a.length ≤ 255 := by
    intro a ha
    rw [hdata] at ha
    simp only [List.mem_cons, List.not_mem_nil, or_false] at ha
    rcases ha with rfl | rfl
    · exact (hplain _ (by simp)).1
    · exact (hplain _ (by simp)).1
  obtain ⟨wb, hqueue, hread, hlimit⟩ := queueRequest_eq h.write_fresh hversion hlen
  rw [hcmd, hdata] at hread
  have hnext : onConnecting sys k =
      (.sendAuth, { k with client := { k.client with writeBuffer := wb } }) := by
    rw [onConnecting, if_neg (by simp [hso]), h.alive.args_eq, hbuild, Option.bind_some, hqueue]
  refine ⟨_, dispatch_connecting h.interest_eq h.current_eq, ?_⟩
  rw [hnext]
  refine ⟨⟨⟨h.alive.args_eq, h.alive.finished, h.alive.connectFailed⟩, rfl, h.interest_eq, ?_, ?_,
    hlimit, h.read_fresh⟩, h.sent_eq, h.received_eq⟩
  · change bufferReadPtr wb ≠ []
    rw [hread]
    simp [monMessage]
  · change k.sent ++ bufferReadPtr wb = _
    rw [h.sent_eq, List.nil_append, hread]

theorem sending_again {isAuth : Bool} {wire : List UInt8} (h : Sending args isAuth wire k)
    (hsys : sys.write = .again) : dispatch sys k = some k := by
  rw [dispatch_send isAuth h.interest_eq h.current_eq, sendBuffer, hsys]
  exact congrArg some (afterEvent_self (sendState_ne isAuth) h.current_eq)

/-- The kernel takes at least one byte; after the last the client reads. -/
theorem sending_accept {isAuth : Bool} {wire : List UInt8} (h : Sending args isAuth wire k) {n : ℕ}
    (hn : 0 < n) (hsys : sys.write = .accept n) :
    ∃ k', dispatch sys k = some k' ∧ k.sent.length < k'.sent.length ∧ k'.sent <+: wire ∧
      k'.received = k.received ∧
      (Sending args isAuth wire k' ∨ Waiting args isAuth [] k' ∧ k'.sent = wire) := by
  obtain ⟨⟨hargs, hfinished, hfailed⟩, hcurrent, hint, hpending, hout, hlimit, hfresh⟩ := h
  generalize hwb : k.client.writeBuffer = b at hpending hout hlimit
  have hpos := List.length_pos_iff.mpr hpending
  have htake : ((min n (bufferReadPtr b).length : ℕ) : ℤ).toNat ≤ (bufferReadPtr b).length := by
    rw [Int.toNat_natCast]
    exact Nat.min_le_right _ _
  have hadv := bufferReadPtr_readAdv b _ htake
  have hsend : sendBuffer sys (sendState isAuth) (recvState isAuth) k =
      if bufferCanRead (bufferReadAdv b (min n (bufferReadPtr b).length : ℕ) htake) then
        (sendState isAuth, { k with
          client := { k.client with writeBuffer := bufferReadAdv b _ htake }
          sent := k.sent ++ (bufferReadPtr b).take (min n (bufferReadPtr b).length) })
      else
        (recvState isAuth, { k with
          client := { k.client with writeBuffer := bufferReadAdv b _ htake }
          sent := k.sent ++ (bufferReadPtr b).take (min n (bufferReadPtr b).length)
          interest := .opRead }) := by
    subst hwb
    simp only [sendBuffer, hsys, sysWrite]
  have hgrow : k.sent.length <
      (k.sent ++ (bufferReadPtr b).take (min n (bufferReadPtr b).length)).length := by
    rw [List.length_append, List.length_take]
    omega
  have hsplit : (k.sent ++ (bufferReadPtr b).take (min n (bufferReadPtr b).length)) ++
      (bufferReadPtr b).drop (min n (bufferReadPtr b).length) = wire := by
    rw [List.append_assoc, List.take_append_drop, hout]
  rw [dispatch_send isAuth hint hcurrent, hsend]
  cases hcan : bufferCanRead (bufferReadAdv b (min n (bufferReadPtr b).length : ℕ) htake) with
  | true =>
    have hne := (bufferCanRead_iff _).mp hcan
    rw [if_pos rfl]
    simp only [afterEvent, if_neg (sendState_ne isAuth)]
    refine ⟨_, rfl, hgrow, ⟨_, hsplit⟩, rfl, Or.inl ⟨⟨hargs, hfinished, hfailed⟩, rfl, hint, hne, ?_,
      (bufferLimit_readAdv b _ htake).trans hlimit, hfresh⟩⟩
    rw [hadv]
    exact hsplit
  | false =>
    have hnil := (bufferCanRead_eq_false_iff _).mp hcan
    have hdrop := hadv.symm.trans hnil
    have hall : min n (bufferReadPtr b).length = (bufferReadPtr b).length := by
      have hlen := congrArg List.length hdrop
      rw [List.length_drop, List.length_nil] at hlen
      omega
    rw [if_neg Bool.false_ne_true]
    simp only [afterEvent, if_neg (recvState_ne isAuth)]
    rw [hdrop, List.append_nil] at hsplit
    refine ⟨_, rfl, hgrow, ⟨[], (List.append_nil _).trans hsplit⟩, rfl, Or.inr
      ⟨⟨⟨hargs, hfinished, hfailed⟩, rfl, rfl, fresh_readAdv htake hall hlimit, hfresh.contents, ?_,
        hfresh.limit⟩, hsplit⟩⟩
    exact hfresh.room

theorem waiting_again {isAuth : Bool} {got : List UInt8} (h : Waiting args isAuth got k)
    (hgot : got.length < MON_READ_BUF_SIZE) (hsys : sys.read = .again) :
    dispatch sys k = some k := by
  have hroom := h.room_eq
  rw [dispatch_recv isAuth h.interest_eq h.current_eq, recvResponse, if_neg (by omega), hsys]
  exact congrArg some (afterEvent_self (recvState_ne isAuth) h.current_eq)

/-- A read that leaves the response unfinished. -/
theorem waiting_more {isAuth : Bool} {got bytes : List UInt8} (h : Waiting args isAuth got k)
    {status : UInt8} {payload : List UInt8} (hlen : payload.length < 65536) {b : UInt8}
    {rest : List UInt8} (hsys : sys.read = .data b rest)
    (hbytes : (b :: rest).take (bufferWritePtr k.client.readBuffer) = bytes) (hsome : bytes ≠ [])
    (hpre : got ++ bytes <+: monFrame status payload) (hne : got ++ bytes ≠ monFrame status payload) :
    ∃ k', dispatch sys k = some k' ∧ Waiting args isAuth (got ++ bytes) k' ∧
      k'.sent = k.sent ∧ k'.received = k.received ++ bytes := by
  obtain ⟨⟨hargs, hfinished, hfailed⟩, hcurrent, hint, hfresh, hgot, hroom, hlimit⟩ := h
  have hfit : bytes.length ≤ bufferWritePtr k.client.readBuffer := by
    rw [← hbytes]
    exact List.length_take_le _ _
  have hpos := List.length_pos_iff.mpr hsome
  have hread := bufferReadPtr_put k.client.readBuffer bytes hfit
  rw [hgot] at hread
  obtain ⟨more, hmore⟩ := hpre
  have hdecode : monResponseDecode (got ++ bytes) = .needMore := by
    apply monResponseDecode_prefix hlen hmore
    rintro rfl
    exact hne ((List.append_nil _).symm.trans hmore)
  have hrecv : recvResponse sys (recvState isAuth) isAuth k = (recvState isAuth, { k with
      client := { k.client with readBuffer := bufferPut k.client.readBuffer bytes hfit }
      received := k.received ++ bytes }) := by
    subst hbytes
    unfold recvResponse
    rw [if_neg (by omega)]
    simp only [hsys, sysRead, if_neg hsome]
    split
    next => rfl
    next herror =>
      rw [hread, hdecode] at herror
      exact absurd herror (by simp)
    next hok =>
      rw [hread, hdecode] at hok
      exact absurd hok (by simp)
  have hdispatch := @dispatch_recv k sys isAuth hint hcurrent
  rw [hrecv] at hdispatch
  simp only [afterEvent, if_neg (recvState_ne isAuth)] at hdispatch
  refine ⟨_, hdispatch, ⟨⟨hargs, hfinished, hfailed⟩, rfl, hint, hfresh, hread, ?_, ?_⟩, rfl, rfl⟩
  · change bufferWritePtr (bufferPut k.client.readBuffer bytes hfit) + (got ++ bytes).length = _
    rw [bufferWritePtr_put, List.length_append]
    omega
  · exact (bufferLimit_put _ _ _).trans hlimit

/-- The read that completes the response. -/
theorem waiting_whole {isAuth : Bool} {got bytes : List UInt8} (h : Waiting args isAuth got k)
    {status : UInt8} {payload : List UInt8} (hlen : payload.length < 65536) {b : UInt8}
    {rest : List UInt8} (hsys : sys.read = .data b rest)
    (hbytes : (b :: rest).take (bufferWritePtr k.client.readBuffer) = bytes) (hsome : bytes ≠ [])
    (heq : got ++ bytes = monFrame status payload) :
    ∃ rb resp, Fresh rb MON_READ_BUF_SIZE ∧ resp.status = status ∧ resp.bytes = payload ∧
      dispatch sys k = some (afterEvent
        ((if isAuth then onAuthOk else onCmdOk)
          { k with
            client := { k.client with readBuffer := rb }, received := k.received ++ bytes }
          resp)) := by
  obtain ⟨-, hcurrent, hint, -, hgot, hroom, hlimit⟩ := h
  have hfit : bytes.length ≤ bufferWritePtr k.client.readBuffer := by
    rw [← hbytes]
    exact List.length_take_le _ _
  have hpos := List.length_pos_iff.mpr hsome
  have hread := bufferReadPtr_put k.client.readBuffer bytes hfit
  rw [hgot, heq] at hread
  obtain ⟨resp, hdecode, -, hstatus, -, hpayload, -⟩ := monResponseDecode_frame hlen status []
  rw [List.append_nil, ← hread] at hdecode
  have hwhole : (((bufferReadPtr (bufferPut k.client.readBuffer bytes hfit)).length : ℕ) : ℤ).toNat ≤
      (bufferReadPtr (bufferPut k.client.readBuffer bytes hfit)).length := Nat.le_of_eq rfl
  refine ⟨bufferReadAdv _ _ hwhole, resp, fresh_readAdv hwhole rfl ?_, hstatus, hpayload, ?_⟩
  · exact (bufferLimit_put _ _ _).trans hlimit
  · rw [dispatch_recv isAuth hint hcurrent]
    subst hbytes
    unfold recvResponse
    rw [if_neg (by omega)]
    simp only [hsys, sysRead, if_neg hsome]
    split
    next hmore =>
      rw [hdecode] at hmore
      exact absurd hmore (by simp)
    next herror =>
      rw [hdecode] at herror
      exact absurd herror (by simp)
    next resp' consumed hok =>
      have hboth := hdecode.symm.trans hok
      simp only [MonDecode.ok.injEq] at hboth
      obtain ⟨rfl, rfl⟩ := hboth
      cases isAuth <;> rfl

/-- The client has left with `result`. -/
structure Exited (k k' : ClientKey) (result : ℕ) : Prop where
  finished : k'.client.finished = true
  connectFailed : k'.client.connectFailed = k.client.connectFailed
  result_eq : k'.client.result = result
  sent_eq : k'.sent = k.sent
  received_eq : k'.received = k.received

theorem onAuthOk_refused {resp : MonResponse} (h : resp.status ≠ MON_STATUS_OK) :
    Exited k (afterEvent (onAuthOk k resp)) MON_EXIT_AUTH := by
  rw [onAuthOk, if_pos h]
  exact ⟨rfl, rfl, rfl, rfl, rfl⟩

theorem onAuthOk_accepted {resp : MonResponse} (h : resp.status = MON_STATUS_OK)
    (halive : Alive args k) (hplain : args.Plain) {cmd : UInt8} {cargs : List (List UInt8)}
    (hcmd : args.command = some (cmd, cargs))
    (hwrite : Fresh k.client.writeBuffer MON_WRITE_BUF_SIZE)
    (hread : Fresh k.client.readBuffer MON_READ_BUF_SIZE) :
    Sending args false (k.sent ++ monMessage cmd cargs) (afterEvent (onAuthOk k resp)) ∧
      (afterEvent (onAuthOk k resp)).sent = k.sent ∧
      (afterEvent (onAuthOk k resp)).received = k.received := by
  obtain ⟨r, hbuild, hversion, hrcmd, hdata⟩ := buildCmdRequest_eq hplain hcmd
  have hlen := (hplain.command_length hcmd).2
  rw [← hdata] at hlen
  obtain ⟨wb, hqueue, hpending, hlimit⟩ := queueRequest_eq hwrite hversion hlen
  rw [hrcmd, hdata] at hpending
  have hnext : onAuthOk k resp = (.sendCmd, { k with
      client := { k.client with writeBuffer := wb }, interest := .opWrite }) := by
    rw [onAuthOk, if_neg (not_not.mpr h), halive.args_eq, hbuild, Option.bind_some, hqueue]
  rw [hnext]
  refine ⟨⟨⟨halive.args_eq, halive.finished, halive.connectFailed⟩, rfl, rfl, ?_, ?_, hlimit, hread⟩,
    rfl, rfl⟩
  · change bufferReadPtr wb ≠ []
    rw [hpending]
    simp [monMessage]
  · change k.sent ++ bufferReadPtr wb = _
    rw [hpending]

theorem onCmdOk_refused {resp : MonResponse} (h : resp.status ≠ MON_STATUS_OK) :
    Exited k (afterEvent (onCmdOk k resp)) MON_EXIT_CMD := by
  rw [onCmdOk, if_pos h]
  exact ⟨rfl, rfl, rfl, rfl, rfl⟩

theorem onCmdOk_accepted {resp : MonResponse} (h : resp.status = MON_STATUS_OK)
    (hformat : (formatPayload k.client.args resp).2 = true) :
    Exited k (afterEvent (onCmdOk k resp)) MON_EXIT_OK := by
  have hnext : onCmdOk k resp = (.done, { k with
      client := { k.client with
        printed := (formatPayload k.client.args resp).1, result := MON_EXIT_OK } }) := by
    simp only [onCmdOk, h, ne_eq, not_true_eq_false, if_false, hformat, if_true]
  rw [hnext]
  exact ⟨rfl, rfl, rfl, rfl, rfl⟩

end Phases

end SocksProxy.CliClient
