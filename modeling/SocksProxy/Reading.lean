import SocksProxy.Dialing

/-!
A read of the client socket in negotiation, up to the point where the bytes are
in the buffer and the state machine takes over, and from the point where its
callback returned a state. What lies between depends on the state.
-/
namespace SocksProxy.Reading

open ByteBuffer ByteScan Hello Auth Request UserTable Kernel Stm ConnState Connect Connection
open Stages Dialing

variable {s : Stage} {c c' : Conn} {sys : Sys}

section Reading

def readCall (c : Conn) (sys : Sys) : Call := .read .client (bufferWritePtr c.readBuffer) sys.read

/-- The connection right after `l` was read. -/
def filled (c : Conn) (sys : Sys) (l : List UInt8)
    (hl : l.length ≤ bufferWritePtr c.readBuffer) : Conn :=
  { c.log (readCall c sys) with readBuffer := bufferPut c.readBuffer l hl }

/-- The peer sent `l`, or as much of it as there is room for. -/
def Arrived (c : Conn) (sys : Sys) (l : List UInt8) : Prop :=
  (readCall c sys).received .client = l

theorem arrived_data {b : UInt8} {rest : List UInt8} (h : sys.read = .data b rest) :
    Arrived c sys ((b :: rest).take (bufferWritePtr c.readBuffer)) := by
  simp [Arrived, readCall, Call.received, h]

theorem readCall_sent (c : Conn) (sys : Sys) : (readCall c sys).sent .client = [] := rfl

theorem fits_write_empty (h : Fits s c) (hs : s.interest ≠ OP_WRITE) :
    bufferReadPtr c.writeBuffer = [] := by
  by_contra hne
  exact hs (h.pending_iff.mp hne)

/-- A read of the client socket in negotiation: nothing to do, the end of the
connection, or bytes for the state machine. -/
theorem socksv5Read_cases (sys : Sys) (h : Fits s c) (hs : s.interest = OP_READ) :
    (sys.read = .again ∧ socksv5Read sys c = some (c.log (readCall c sys))) ∨
    ((sys.read = .eof ∨ sys.read = .fail ∨ bufferWritePtr c.readBuffer = 0) ∧
      Arrived c sys [] ∧ socksv5Read sys c = some (closed (c.log (readCall c sys)))) ∨
    ∃ l hl, l ≠ [] ∧ Arrived c sys l ∧
      socksv5Read sys c = (socks5HandleRead sys (filled c sys l hl)).map socksv5ApplyAction := by
  have hlog : ∀ call : Call, (c.log call).clientItem = some OP_READ := by
    intro call
    rw [← hs, ← h.clientItem_eq]
    rfl
  have hclose : ∀ call : Call, socks5ConnectionClose (c.log call) = closed (c.log call) := by
    intro call
    exact socks5ConnectionClose_eq h.closing_eq h.clientFd_isSome h.clientRegistered_eq
      (parsed_origin h.parsed)
  cases hr : sys.read with
  | again =>
    left
    refine ⟨rfl, ?_⟩
    simp [socksv5Read, h.relay_eq, hr, sysRead, selectorSetInterest, hlog, readCall]
    rw [← hlog (.read .client (bufferWritePtr c.readBuffer) .again)]
  | eof =>
    right; left
    refine ⟨Or.inl rfl, by simp [Arrived, readCall, Call.received, hr], ?_⟩
    simp [socksv5Read, h.relay_eq, hr, sysRead, hclose, readCall]
  | fail =>
    right; left
    refine ⟨Or.inr (Or.inl rfl), by simp [Arrived, readCall, Call.received, hr], ?_⟩
    simp [socksv5Read, h.relay_eq, hr, sysRead, hclose, readCall]
  | data b rest =>
    right
    by_cases hroom : bufferWritePtr c.readBuffer = 0
    · left
      refine ⟨Or.inr (Or.inr hroom), by simp [Arrived, readCall, Call.received, hr, hroom], ?_⟩
      simp [socksv5Read, h.relay_eq, hr, sysRead, hroom, hclose, readCall]
    · right
      have hne : (b :: rest).take (bufferWritePtr c.readBuffer) ≠ [] := by
        simp [hroom]
      refine ⟨_, List.length_take_le _ _, hne, arrived_data hr, ?_⟩
      simp only [socksv5Read, h.relay_eq, hr, sysRead, hne]
      simp [filled, readCall, hr]

section Filled

variable {l : List UInt8} {hl : l.length ≤ bufferWritePtr c.readBuffer}

theorem filled_read (hl : l.length ≤ bufferWritePtr c.readBuffer) (h : Fits s c)
    (harr : Arrived c sys l) :
    received .client (filled c sys l hl).trace =
      s.consumed ++ (bufferReadPtr c.readBuffer ++ l) := by
  have hread : received .client (filled c sys l hl).trace =
      received .client c.trace ++ l := by
    simp only [filled, Conn.log, received_append, received_cons, received_nil, List.append_nil]
    rw [harr]
  rw [hread, h.received_eq, List.append_assoc]

theorem filled_sent : sent .client (filled c sys l hl).trace = sent .client c.trace := by
  simp [filled, Conn.log, readCall_sent]

theorem filled_readPtr (sys : Sys) (hl : l.length ≤ bufferWritePtr c.readBuffer) :
    bufferReadPtr (filled c sys l hl).readBuffer =
    bufferReadPtr c.readBuffer ++ l := bufferReadPtr_put _ _ _

theorem filled_tidy (sys : Sys) (h : Fits s c) (hne : l ≠ []) :
    Tidy (filled c sys l hl).readBuffer := h.readTidy.put l hl hne

end Filled

/-- Where a handler of the state machine leaves a connection that it closes in
state `st`, after the calls `calls`. -/
structure Broken (st : Socks5State) (c c' : Conn) (calls : List Call) : Prop where
  closed_spec : Closed c'
  relay_eq : c'.relayStarted = c.relayStarted
  eof_eq : ∀ d, eof c' d = eof c d
  current_eq : c'.current = some st
  trace_eq : ∃ u, c'.trace = calls ++ u ∧ ∀ call ∈ u, ∃ side, call = .close side

theorem broken_closed {st : Socks5State} {c₁ : Conn} (hrelay : c₁.relayStarted = c.relayStarted)
    (heof : ∀ d, eof (closed c₁) d = eof c d) (hcurrent : c₁.current = some st) :
    Broken st c (closed c₁) c₁.trace where
  closed_spec := closed_spec c₁
  relay_eq := hrelay
  eof_eq := heof
  current_eq := hcurrent
  trace_eq := closed_calls c₁

section Applying

/-- The states that wait for the client socket. -/
def Waits (st : Socks5State) : Prop :=
  st ≠ .error ∧ st ≠ .done ∧ st ≠ .connecting ∧ st ≠ .relay

theorem apply_read {st : Socks5State} (hst : Waits st) (hitem : c.clientItem.isSome)
    (hempty : bufferReadPtr c.writeBuffer = []) :
    socksv5ApplyAction (actionAfter (st, c)) =
      { c with current := some st, clientItem := some OP_READ } := by
  obtain ⟨i, hi⟩ := Option.isSome_iff_exists.mp hitem
  obtain ⟨h1, h2, h3, h4⟩ := hst
  have hread := (bufferCanRead_eq_false_iff c.writeBuffer).mpr hempty
  simp [actionAfter, h1, h2, h3, h4, hread, socksv5ApplyAction, selectorSetInterest, hi]

theorem apply_write {st : Socks5State} (hst : Waits st) (hitem : c.clientItem.isSome)
    (hpending : bufferReadPtr c.writeBuffer ≠ []) :
    socksv5ApplyAction (actionAfter (st, c)) =
      { c with current := some st, clientItem := some OP_WRITE } := by
  obtain ⟨i, hi⟩ := Option.isSome_iff_exists.mp hitem
  obtain ⟨h1, h2, h3, h4⟩ := hst
  have hread := (bufferCanRead_iff c.writeBuffer).mpr hpending
  simp [actionAfter, h1, h2, h3, h4, hread, socksv5ApplyAction, selectorSetInterest, hi]

theorem apply_connecting (hitem : c.clientItem.isSome) :
    socksv5ApplyAction (actionAfter (.connecting, c)) =
      { c with current := some .connecting, clientItem := some OP_NOOP } := by
  obtain ⟨i, hi⟩ := Option.isSome_iff_exists.mp hitem
  simp [actionAfter, socksv5ApplyAction, selectorSetInterest, hi]

theorem apply_close {st : Socks5State} (hst : st = .error ∨ st = .done)
    (hclose : socks5ConnectionClose { c with current := some st } =
      closed { c with current := some st }) :
    socksv5ApplyAction (actionAfter (st, c)) = closed { c with current := some st } := by
  simp only [actionAfter, hst, if_true, socksv5ApplyAction]
  exact hclose

/-- An arrival callback runs on three states only; there are no departures. -/
theorem jump_silent (st next : Socks5State) (h : st ≠ next ∧ next ≠ .helloRead ∧
    next ≠ .authRead ∧ next ≠ .requestRead) (k : Conn) : jump (stm sys) st next k = (next, k) := by
  obtain ⟨hne, hhello, hauth, hrequest⟩ := h
  rw [jump_of_ne (stm sys) hne]
  have hdepart : depart (stm sys) st k = k := by cases st <;> rfl
  rw [hdepart]
  cases next <;> first | rfl | contradiction

end Applying

end Reading

end SocksProxy.Reading
