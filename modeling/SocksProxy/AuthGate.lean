import SocksProxy.Lifetime

/-!
The authentication gate: what a connection does for its client beyond answering
comes after method 0x02 was selected and the credentials of this very connection
were found in the user table, and the access log names the user who passed.
-/
namespace SocksProxy.AuthGate

open ByteBuffer Hello Auth Request UserTable Kernel ConnState Connection
open Stages RelayHandlers Lifetime Runs

variable {c : Conn} {t u : List Call} {forced : Prop}

/-- The calls of a connection that has passed the gate and switched to relaying. -/
structure Logged (l : Login) (port : ℕ) (c : Conn) : Prop where
  relay_eq : c.relayStarted = true
  calls : ∃ pre dest post atyp address hi lo,
    c.trace = pre ++ .accessLogAdd (cString l.uname) dest port :: .startRelay :: post ∧
    Gate l pre ∧ ValidAddress atyp address ∧ port = hi.toNat * 256 + lo.toNat ∧
    l.message ++ requestMessage SOCKS5_CMD_CONNECT atyp address (hi, lo) <+:
      received .client pre ∧
    ∀ call ∈ pre ++ post, ¬ Starts call

private theorem relayCall_calls {call : Call} (h : RelayCall call ∨ ∃ side, call = .close side) :
    ¬ Privileged call ∧ ¬ Starts call := by
  rcases h with h | ⟨side, rfl⟩
  · cases call <;> simp_all [RelayCall, Privileged, Starts]
  · exact ⟨id, id⟩

private theorem switched_logged (hswitched : Switched c.trace t) (hrelay : c.relayStarted = true)
    (ht : ∀ call ∈ t, RelayCall call ∨ ∃ side, call = .close side) :
    ∃ l port, Logged l port c := by
  obtain ⟨l, atyp, address, port, bind, dest, t₀, hvalid, hist, -, htrace⟩ := hswitched
  refine ⟨l, _, hrelay, t₀, dest, t, atyp, address, port.1, port.2, htrace, hist.past, hvalid, rfl,
    hist.consumed_prefix, ?_⟩
  intro call hmem
  rcases List.mem_append.mp hmem with hmem | hmem
  · exact hist.unstarted call hmem
  · exact (relayCall_calls (ht call hmem)).2

private theorem switched_gated (hswitched : Switched c.trace t) :
    ∀ pre call post, c.trace = pre ++ call :: post → Privileged call → ∃ l, Gate l pre := by
  obtain ⟨l, atyp, address, port, bind, dest, t₀, -, hist, -, htrace⟩ := hswitched
  rw [htrace]
  apply gated_append hist.gated
  intro call hmem hcall
  exact ⟨l, hist.past⟩

/-- The gate in every phase of a connection's life. -/
theorem phase_gate (h : Phase forced c) :
    (∀ pre call post, c.trace = pre ++ call :: post → Privileged call → ∃ l, Gate l pre) ∧
      (c.relayStarted = false ∧ (∀ call ∈ c.trace, ¬ Starts call) ∨
        ∃ l port, Logged l port c) := by
  cases h with
  | negotiating hfits hist => exact ⟨hist.gated, Or.inl ⟨hfits.relay_eq, hist.unstarted⟩⟩
  | broken hclosed hrelay heof hist => exact ⟨hist.gated, Or.inl ⟨hrelay, hist.unstarted⟩⟩
  | relaying hswitched hrel ht =>
    exact ⟨switched_gated hswitched,
      Or.inr (switched_logged hswitched hrel.running.relay_eq ht)⟩
  | relayed hswitched hclosed hrelay hflow ht hwhy =>
    exact ⟨switched_gated hswitched, Or.inr (switched_logged hswitched hrelay ht)⟩

/-- In every run, a connect, a lookup, a log entry or a relay comes after the
gate; and the relay starts with the only log entry, which carries the name and
the port that this connection sent. -/
theorem authentication_gate {fd : ℕ} {users : Table} {es : List Event}
    (h : Run Step (socks5Init fd users) es c) :
    (∀ pre call post, c.trace = pre ++ call :: post → Privileged call → ∃ l, Gate l pre) ∧
      (c.relayStarted = false ∧ (∀ call ∈ c.trace, ¬ Starts call) ∨
        ∃ l port, Logged l port c) :=
  phase_gate (phase_run h)

theorem authentication_gate_polite : ∃ c, replay accepted politely = some c ∧
    c.relayStarted = true ∧ ∃ l port, Logged l port c := by
  have hrun : (replay accepted politely).map (fun c => c.relayStarted) = some true := by
    decide +kernel
  obtain ⟨c, hc, hrelay⟩ := Option.map_eq_some_iff.mp hrun
  refine ⟨c, hc, hrelay, ?_⟩
  rcases (authentication_gate (replay_run hc)).2 with ⟨hfalse, -⟩ | hlogged
  · rw [hrelay] at hfalse
    exact absurd hfalse (by decide)
  · exact hlogged

end SocksProxy.AuthGate
