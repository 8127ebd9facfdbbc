import SocksProxy.ReplyOrder

/-!
The relay as a pair of streams. From its start on nothing is lost, duplicated or
reordered in either direction, and half closes wait for the bytes before them.
At its start, the bytes that were read ahead of it are dropped.
-/
namespace SocksProxy.RelayFidelity

open ByteBuffer ByteScan Hello Auth Request UserTable Kernel Stm ConnState Connection
open Stages Dialing RelayFlow RelayHandlers Turns Lifetime ReplyOrder Runs

variable {c : Conn} {t : List Call} {forced : Prop}

section Relay

/-- A connection whose relay has made the calls `t`. -/
theorem phase_relay (h : Phase forced c) (hrelay : c.relayStarted = true) :
    ∃ t, Switched c.trace t ∧ (∀ d, Flowing t c d) ∧
      (c.closing = true → Failed t ∨ Finished c ∨ forced) := by
  cases h with
  | negotiating hfits hist =>
    rw [hfits.relay_eq] at hrelay
    exact absurd hrelay (by decide)
  | broken hclosed hrelay' heof hist =>
    rw [hrelay'] at hrelay
    exact absurd hrelay (by decide)
  | relaying hswitched hrel ht =>
    refine ⟨_, hswitched, hrel.flowing, fun hclosing => ?_⟩
    rw [hrel.running.closing_eq] at hclosing
    exact absurd hclosing (by decide)
  | relayed hswitched hclosed hrelay' hflow ht hwhy => exact ⟨_, hswitched, hflow, fun _ => hwhy⟩

theorem switched_split {full : List Call} (h : Switched full t) :
    full = beforeRelay full ++ .startRelay :: t := by
  obtain ⟨l, atyp, address, port, bind, dest, t₀, -, hist, -, rfl⟩ := h
  rw [beforeRelay_switched hist.unstarted]
  simp

/-- In every run, from the start of the relay on and in both directions, what
was written and what is buffered is what was read; a shutdown follows the last
byte before the end of file, once, and ends the writes; and a relay that is
closed without an error, and not by the server, is finished. -/
theorem relay_fidelity {fd : ℕ} {users : Table} {es : List Event}
    (h : Run Step (socks5Init fd users) es c) (hrelay : c.relayStarted = true) :
    ∃ t, c.trace = beforeRelay c.trace ++ .startRelay :: t ∧ (∀ d, Flowing t c d) ∧
      (c.closing = true → .forceClose ∉ es → Failed t ∨ Finished c) := by
  by_cases hforce : .forceClose ∈ es
  · obtain ⟨t, hswitched, hflow, -⟩ := phase_relay (phase_run h) hrelay
    exact ⟨t, switched_split hswitched, hflow, fun _ hnot => absurd hforce hnot⟩
  · have hguarded : Run (Guarded Step fun _ e => e ≠ .forceClose) (socks5Init fd users) es c := by
      apply h.guarded
      rintro e hmem - rfl
      exact hforce hmem
    obtain ⟨t, hswitched, hflow, hwhy⟩ := phase_relay (phase_run_unforced hguarded) hrelay
    refine ⟨t, switched_split hswitched, hflow, fun hclosing _ => ?_⟩
    rcases hwhy hclosing with hfail | hfin | hfalse
    · exact Or.inl hfail
    · exact Or.inr hfin
    · exact hfalse.elim

theorem relay_fidelity_polite : ∃ c, replay accepted politely = some c ∧
    ∃ t, c.trace = beforeRelay c.trace ++ .startRelay :: t ∧ ∀ d, Flowing t c d := by
  have hrun : (replay accepted politely).map (fun c => c.relayStarted) = some true := by
    decide +kernel
  obtain ⟨c, hc, hrelay⟩ := Option.map_eq_some_iff.mp hrun
  obtain ⟨t, htrace, hflow, -⟩ := relay_fidelity (replay_run hc) hrelay
  exact ⟨c, hc, t, htrace, hflow⟩

end Relay

section Handover

variable {l l' : Login} {atyp atyp' : UInt8} {address address' : List UInt8}
  {port port' : UInt8 × UInt8} {r r' : List UInt8}

/-- The three messages of a session, one after the other. -/
def opening (l : Login) (atyp : UInt8) (address : List UInt8) (port : UInt8 × UInt8) :
    List UInt8 :=
  l.message ++ requestMessage SOCKS5_CMD_CONNECT atyp address port

/-- A stream has one reading as hello, credentials, request and the rest. -/
theorem opening_unique (hl : l.Valid) (hl' : l'.Valid) (ha : ValidAddress atyp address)
    (ha' : ValidAddress atyp' address')
    (heq : opening l atyp address port ++ r = opening l' atyp' address' port' ++ r') :
    opening l atyp address port = opening l' atyp' address' port' := by
  simp only [opening, Login.message, List.append_assoc] at heq
  have hhello := hello_ends_message onHelloMethod helloStart hl.methods_le
  have hhello' := hello_ends_message onHelloMethod helloStart hl'.methods_le
  obtain ⟨hhello, heq⟩ := hhello.unique hhello' heq
  have hauth := (auth_ends_message authParserZero hl.uname_le hl.passwd_le).1
  have hauth' := (auth_ends_message authParserZero hl'.uname_le hl'.passwd_le).1
  obtain ⟨hauth, heq⟩ := hauth.unique hauth' heq
  have hrequest := (request_ends_message requestParserZero SOCKS5_CMD_CONNECT port ha).1
  have hrequest' := (request_ends_message requestParserZero SOCKS5_CMD_CONNECT port' ha').1
  obtain ⟨hrequest, -⟩ := hrequest.unique hrequest' heq
  rw [opening, opening, Login.message, Login.message, hhello, hauth, hrequest]

/-- The bytes after the request are with the origin, or on their way to it, if
and only if none of them had been read when the relay started. -/
theorem handover_iff {fd : ℕ} {users : Table} {es : List Event} {app : List UInt8}
    (h : Run Step (socks5Init fd users) es c) (hrelay : c.relayStarted = true) (hl : l.Valid)
    (ha : ValidAddress atyp address)
    (hstream : received .client c.trace = opening l atyp address port ++ app) :
    sent .origin c.trace ++ bufferReadPtr c.readBuffer = app ↔
      received .client (beforeRelay c.trace) = opening l atyp address port := by
  obtain ⟨t, hswitched, hflow, -⟩ := phase_relay (phase_run h) hrelay
  have hbytes : sent .origin t ++ bufferReadPtr c.readBuffer = received .client t :=
    (hflow .client).bytes_eq
  have hsplit := switched_split hswitched
  obtain ⟨l', atyp', address', port', bind, dest, t₀, ha', hist, -, htrace⟩ := hswitched
  obtain ⟨r, hr⟩ := hist.consumed_prefix
  have hbefore : beforeRelay c.trace =
      t₀ ++ [.accessLogAdd (cString l'.uname) dest (port'.1.toNat * 256 + port'.2.toNat)] := by
    rw [htrace, beforeRelay_switched hist.unstarted]
  -- `r` is what was read ahead of the relay
  have hahead : received .client (beforeRelay c.trace) = opening l' atyp' address' port' ++ r := by
    rw [hbefore, received_append]
    exact (List.append_nil _).trans hr.symm
  have hall : received .client c.trace =
      opening l' atyp' address' port' ++ (r ++ received .client t) := by
    rw [hsplit, received_append, hahead, List.append_assoc]
    rfl
  have hdelivered : sent .origin c.trace = sent .origin t := by
    rw [hsplit, hbefore, sent_append, sent_append, hist.untouched.2]
    rfl
  rw [hall] at hstream
  have hsame := opening_unique hist.past.valid hl ha' ha hstream
  rw [hsame, List.append_cancel_left_eq] at hstream
  rw [hdelivered, hbytes, hahead, hsame, ← hstream]
  constructor
  · intro heq
    rw [List.self_eq_append_left.mp heq, List.append_nil]
  · intro heq
    rw [List.append_right_eq_self.mp heq, List.nil_append]

/-- The polite session, but with `app` sent in one segment with the request. -/
def eagerly (app : List UInt8) : List Event :=
  [arrives helloBytes, flushes, arrives authBytes, flushes, arrives (connectBytes ++ app), flushes]

/-- A byte that came with the request reaches neither the origin nor its buffer. -/
theorem handover_drops : ∃ c, Run Step accepted (eagerly [71]) c ∧ c.relayStarted = true ∧
    received .client c.trace = opening userLogin SOCKS5_ATYP_IPV4 [10, 0, 0, 1] (0, 80) ++ [71] ∧
    sent .origin c.trace ++ bufferReadPtr c.readBuffer ≠ [71] := by
  have hrun : (replay accepted (eagerly [71])).map (fun c => (c.relayStarted,
      received .client c.trace, sent .origin c.trace ++ bufferReadPtr c.readBuffer)) =
      some (true, opening userLogin SOCKS5_ATYP_IPV4 [10, 0, 0, 1] (0, 80) ++ [71], []) := by
    decide +kernel
  obtain ⟨c, hc, hvals⟩ := Option.map_eq_some_iff.mp hrun
  simp only [Prod.mk.injEq] at hvals
  obtain ⟨hrelay, hreceived, hsent⟩ := hvals
  exact ⟨c, replay_run hc, hrelay, hreceived, by simp [hsent]⟩

theorem handover_iff_polite : ∃ c, Run Step accepted (politely ++ [arrives [71]]) c ∧
    sent .origin c.trace ++ bufferReadPtr c.readBuffer = [71] := by
  have hrun : (replay accepted (politely ++ [arrives [71]])).map (fun c => (c.relayStarted,
      received .client c.trace, received .client (beforeRelay c.trace))) =
      some (true, opening userLogin SOCKS5_ATYP_IPV4 [10, 0, 0, 1] (0, 80) ++ [71],
        opening userLogin SOCKS5_ATYP_IPV4 [10, 0, 0, 1] (0, 80)) := by
    decide +kernel
  obtain ⟨c, hc, hvals⟩ := Option.map_eq_some_iff.mp hrun
  simp only [Prod.mk.injEq] at hvals
  obtain ⟨hrelay, hreceived, hbefore⟩ := hvals
  have haddress : ValidAddress SOCKS5_ATYP_IPV4 [10, 0, 0, 1] := Or.inl ⟨rfl, rfl⟩
  exact ⟨c, replay_run hc,
    (handover_iff (replay_run hc) hrelay userLogin_valid haddress hreceived).mpr hbefore⟩

end Handover

end SocksProxy.RelayFidelity
