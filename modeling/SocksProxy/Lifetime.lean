import Mathlib.Data.List.Induction
import SocksProxy.Turns

/-!
A connection from socks5_init to its end. It negotiates, it relays, or it is
closed, and its calls tell how it got there. The step lemma covers every event;
the run lemma is its induction.
-/
namespace SocksProxy.Lifetime

open ByteBuffer ByteScan Hello Auth Request UserTable Kernel Stm ConnState Connect Connection
open Stages Dialing Reading RelayFlow RelayHandlers Turns Runs

variable {s : Stage} {e : Event} {c c' : Conn} {t u : List Call} {forced : Prop}

section History

/-- A stage behind the gate knows that the gate was passed. -/
private theorem gate_of_past (hpast : s.Past t) (hs : (gateOf s).isSome) : ∃ l, Gate l t := by
  cases s with
  | request l seen => exact ⟨l, hpast⟩
  | connecting l atyp address port => exact ⟨l, hpast⟩
  | reply l message code bind => exact ⟨l, hpast⟩
  | hello seen => simp [gateOf] at hs
  | helloReply methods => simp [gateOf] at hs
  | auth methods seen => simp [gateOf] at hs
  | authReply l accepted => simp [gateOf] at hs

private theorem past_of_turn {s' : Stage} (h : Fits s c) (hpast : s.Past c.trace)
    (htrace : c'.trace = c.trace ++ u) (h' : Fits s' c') (hturn : Turn c c' s e s') :
    s'.Past c'.trace := by
  have hlater : s.Past c'.trace := by
    rw [htrace]
    exact hpast.append u
  cases hturn with
  | wait hbuffer hsock => exact hlater
  | hello hne harr hseen => trivial
  | helloDone htook hlen hsplit => exact hlen
  | helloSent hmem hbuffer hstatus => exact ⟨hlater, hmem⟩
  | auth hne harr hseen => exact hlater
  | authDone htook hu hp hsplit hlookup hcall =>
    exact ⟨⟨hlater.1, hu, hp, hlater.2⟩, _, hcall, hlookup⟩
  | authSent hbuffer hreply =>
    -- the success status is out: this is where the gate is passed
    obtain ⟨hvalid, hlookup⟩ := hlater
    refine ⟨hvalid, ?_, ?_, hlookup⟩
    · rw [h'.received_eq]
      exact ⟨bufferReadPtr c'.readBuffer, by simp [Stage.consumed]⟩
    · have hsent := h'.sent_eq
      rw [fits_write_empty h' (by simp [Stage.interest, OP_READ, OP_WRITE]), List.append_nil]
        at hsent
      rw [hsent]
      exact List.prefix_append _ _
  | request hne harr hseen => exact hlater
  | requestDone htook hsplit hends hdecided hpending hsock => exact hlater
  | requestDialed htook hsplit hdecided => exact hlater
  | dialed hbuffer hevent hpending hsock => exact hlater

private theorem calls_gated (hcalls : Calls s c c' u) (hist : History s c.trace) :
    ∀ call ∈ u, Privileged call → ∃ l, Gate l c.trace := by
  intro call hmem hcall
  exact gate_of_past hist.past (hcalls.privileged call hmem hcall)

/-- The handlers of the negotiation leave the origin's bytes alone. -/
private theorem calls_untouched (hcalls : Calls s c c' u) : Untouched u := by
  constructor
  · refine List.flatMap_eq_nil_iff.mpr fun call hmem => ?_
    cases call with
    | read side n r =>
      obtain ⟨rfl, -, -⟩ := hcalls.reads side n r hmem
      cases r <;> rfl
    | _ => rfl
  · refine List.flatMap_eq_nil_iff.mpr fun call hmem => ?_
    cases call with
    | write side bytes w =>
      obtain ⟨rfl, -⟩ := hcalls.writes side bytes w hmem
      cases w <;> rfl
    | _ => rfl

theorem turn_history {s' : Stage} (h : Fits s c) (hist : History s c.trace)
    (hcalls : Calls s c c' u) (h' : Fits s' c') (hturn : Turn c c' s e s')
    (hu : ∀ call ∈ u, ¬ Starts call) : History s' c'.trace :=
  h'.history hist hcalls.trace_eq (past_of_turn h hist.past hcalls.trace_eq h' hturn)
    (calls_gated hcalls hist) hu (calls_untouched hcalls)

theorem ended_history (hist : History s c.trace) (hcalls : Calls s c c' u)
    (hended : Ended s e c c') (hu : ∀ call ∈ u, ¬ Starts call) : History s c'.trace where
  consumed_prefix := by
    rw [hcalls.trace_eq, received_append]
    exact hist.consumed_prefix.trans (List.prefix_append _ _)
  sent_prefix := hended.sent_prefix
  past := by
    rw [hcalls.trace_eq]
    exact hist.past.append u
  gated := by
    rw [hcalls.trace_eq]
    exact gated_append hist.gated (calls_gated hcalls hist)
  unstarted := by
    rw [hcalls.trace_eq]
    intro call hmem
    rcases List.mem_append.mp hmem with hmem | hmem
    · exact hist.unstarted call hmem
    · exact hu call hmem
  untouched := by
    rw [hcalls.trace_eq]
    exact hist.untouched.append (calls_untouched hcalls)

/-- The trace of a connection whose relay has made the calls `t`. -/
def Switched (full t : List Call) : Prop :=
  ∃ l atyp address port bind dest t₀, ValidAddress atyp address ∧
    History (.reply l (requestMessage SOCKS5_CMD_CONNECT atyp address port)
      SOCKS5_REPLY_SUCCEEDED bind) t₀ ∧
    sent .client t₀ = (Stage.reply l (requestMessage SOCKS5_CMD_CONNECT atyp address port)
      SOCKS5_REPLY_SUCCEEDED bind).output ∧
    full = t₀ ++ .accessLogAdd (cString l.uname) dest (port.1.toNat * 256 + port.2.toNat) ::
      .startRelay :: t

theorem Switched.append {full : List Call} (h : Switched full t) (u : List Call) :
    Switched (full ++ u) (t ++ u) := by
  obtain ⟨l, atyp, address, port, bind, dest, t₀, hvalid, hist, hsent, rfl⟩ := h
  refine ⟨l, atyp, address, port, bind, dest, t₀, hvalid, hist, hsent, ?_⟩
  simp

private theorem begins_switched {l : Login} {message : List UInt8} {bind : Option (SockAddr × ℕ)}
    {sys : Sys} (h : Fits (.reply l message SOCKS5_REPLY_SUCCEEDED bind) c)
    (hist : History (.reply l message SOCKS5_REPLY_SUCCEEDED bind) c.trace)
    (hcalls : Calls (.reply l message SOCKS5_REPLY_SUCCEEDED bind) c c' u)
    (hbegins : Begins l message bind sys c c' u) : Switched c'.trace [] := by
  obtain ⟨atyp, address, port, hvalid, rfl, dest, rfl⟩ := hbegins.request
  refine ⟨l, atyp, address, port, bind, dest, c.trace ++ [Writing.writeCall c sys], hvalid, ?_,
    hbegins.sent_eq, ?_⟩
  · exact
      { consumed_prefix := by
          rw [received_append]
          exact hist.consumed_prefix.trans (List.prefix_append _ _)
        sent_prefix := hbegins.sent_eq ▸ List.prefix_rfl
        past := hist.past.append _
        gated := gated_append hist.gated fun call hmem hcall => ⟨l, hist.past⟩
        unstarted := by
          intro call hmem
          rcases List.mem_append.mp hmem with hmem | hmem
          · exact hist.unstarted call hmem
          · rw [List.mem_singleton.mp hmem]
            exact id
        untouched := hist.untouched.append ⟨rfl, by
          unfold Writing.writeCall
          cases sys.write <;> rfl⟩ }
  · rw [hcalls.trace_eq]
    simp

end History

section Relay

/-- The calls that end a relay touch neither direction. -/
private theorem flowing_close (h : ∀ d, Flowing t c d) (hv : ∀ call ∈ u, ∃ side, call = .close side)
    (hbuf : ∀ d, inbound c' d = inbound c d) (heof : ∀ d, eof c' d = eof c d)
    (hshut : ∀ d, writeShutdown c' d = writeShutdown c d) : ∀ d, Flowing (t ++ u) c' d := by
  intro d
  have hflow : Flowing t c' d := (h d).of_eq (hbuf d) (heof d) (hshut _)
  induction u using List.reverseRecOn with
  | nil => simpa using hflow
  | append_singleton u call ih =>
    have hprev := ih fun call hmem => hv call (List.mem_append_left _ hmem)
    obtain ⟨side, rfl⟩ := hv call (List.mem_append_right _ List.mem_cons_self)
    rw [← List.append_assoc]
    exact hprev.frame ⟨rfl, rfl, by simp, by simp⟩ (by simp) rfl rfl rfl

/-- What an event does to a connection that relays. -/
structure Relayed (forced : Prop) (t : List Call) (c c' : Conn) (u : List Call) : Prop where
  trace_eq : c'.trace = c.trace ++ u
  calls : ∀ call ∈ u, RelayCall call ∨ ∃ side, call = .close side
  relay_eq : c'.relayStarted = true
  flowing : ∀ d, Flowing (t ++ u) c' d
  goes : Relaying (t ++ u) c' ∨ Closed c' ∧ (Failed u ∨ Finished c' ∨ forced)

private theorem running_close (h : Running c) : socks5ConnectionClose c = closed c := by
  obtain ⟨i, hi⟩ := Option.isSome_iff_exists.mp h.originItem_isSome
  exact socks5ConnectionClose_eq h.closing_eq h.clientFd_isSome h.clientRegistered_eq
    (Or.inr ⟨i, h.originFd_isSome, hi, h.originRegistered_eq⟩)

private theorem closed_relayed {c₁ : Conn} (hrun : Running c₁) (htrace : c₁.trace = c.trace ++ u)
    (hu : ∀ call ∈ u, RelayCall call) (hflow : ∀ d, Flowing (t ++ u) c₁ d)
    (hwhy : Failed u ∨ Finished c₁ ∨ forced) :
    ∃ v, Relayed forced t c (closed c₁) v := by
  obtain ⟨v, hv, hclose⟩ := closed_calls c₁
  have hbuf : ∀ d, inbound (closed c₁) d = inbound c₁ d := fun d => by cases d <;> rfl
  have heof : ∀ d, eof (closed c₁) d = eof c₁ d := fun d => by cases d <;> rfl
  refine ⟨u ++ v, ?_⟩
  exact
    { trace_eq := by rw [hv, htrace, List.append_assoc]
      calls := by
        intro call hmem
        rcases List.mem_append.mp hmem with hmem | hmem
        · exact Or.inl (hu call hmem)
        · exact Or.inr (hclose call hmem)
      relay_eq := hrun.relay_eq
      flowing := by
        rw [← List.append_assoc]
        exact flowing_close hflow hclose hbuf heof fun d => by cases d <;> rfl
      goes := by
        refine Or.inr ⟨closed_spec c₁, ?_⟩
        rcases hwhy with (⟨side, n, hmem⟩ | ⟨side, bytes, hmem⟩) | hfin | hforced
        · exact Or.inl (Or.inl ⟨side, n, List.mem_append_left v hmem⟩)
        · exact Or.inl (Or.inr ⟨side, bytes, List.mem_append_left v hmem⟩)
        · exact Or.inr (Or.inl fun d => by
            rw [heof, hbuf]
            exact hfin d)
        · exact Or.inr (Or.inr hforced) }

/-- The outcome of a relay handler, after its action was applied. -/
private theorem applied_relayed (forced : Prop) {r : Socks5Action × Conn} (h : RelayOutcome t c r) :
    ∃ u, Relayed forced t c (closeOn r) u := by
  obtain ⟨action, k⟩ := r
  obtain ⟨u, htrace, hu, hflow, hrun, ⟨rfl, hrel⟩ | ⟨rfl, hwhy⟩⟩ := h
  · exact ⟨u, htrace, fun call hmem => Or.inl (hu call hmem), hrun.relay_eq, hflow, Or.inl hrel⟩
  · have heq : closeOn (.close, k) = closed k := running_close hrun
    rw [heq]
    exact closed_relayed hrun htrace hu hflow (hwhy.imp_right Or.inl)

private theorem apply_closeOn {r : Socks5Action × Conn} (h : RelayOutcome t c r) :
    socksv5ApplyAction r = closeOn r := by
  obtain ⟨action, k⟩ := r
  obtain ⟨u, -, -, -, -, ⟨rfl, -⟩ | ⟨rfl, -⟩⟩ := h <;> rfl

private theorem armed_read {d : Side} (h : Relaying t c)
    (harmed : armed (itemOf c d) FdInterest.read) :
    eof c d = false ∧ bufferWritePtr (inbound c d) ≠ 0 := by
  obtain ⟨i, hi, hread⟩ := harmed
  rw [h.item_eq, Option.some.injEq] at hi
  subst hi
  rw [wanted, Bool.and_eq_true, Bool.not_eq_true', bufferCanWrite_iff] at hread
  exact ⟨hread.1, by omega⟩

/-- An event that the relay hardly notices. -/
private theorem relay_unnoticed (h : Relaying t c) (hrun : Running c')
    (hitem : ∀ d, itemOf c' d = itemOf c d) (hbuf : ∀ d, inbound c' d = inbound c d)
    (heof : ∀ d, eof c' d = eof c d) (hshut : ∀ d, writeShutdown c' d = writeShutdown c d)
    (htrace : c'.trace = c.trace) : Relayed forced t c c' [] := by
  have hflow : ∀ d, Flowing t c' d := fun d => (h.flowing d).of_eq (hbuf d) (heof d) (hshut _)
  have hrel : Relaying t c' := ⟨hrun, fun d => ?_, hflow⟩
  · exact
      { trace_eq := by rw [htrace, List.append_nil]
        calls := by simp
        relay_eq := hrun.relay_eq
        flowing := by simpa using hflow
        goes := Or.inl (by simpa using hrel) }
  · rw [hitem, h.item_eq, wanted, wanted, heof, hbuf, hbuf]

/-- Every event that the selector dispatches during the relay is handled. -/
theorem relay_step (h : Relaying t c) (hen : Enabled c e) (hforced : e = .forceClose → forced) :
    ∃ c' u, handle c e = some c' ∧ Relayed forced t c c' u := by
  have hrun := h.running
  cases e with
  | clientRead sys =>
    obtain ⟨heof, hroom⟩ := armed_read (d := .client) h hen
    have hout := relayRead_spec sys .client h heof hroom
    obtain ⟨u, hu⟩ := applied_relayed forced hout
    refine ⟨_, u, ?_, hu⟩
    show socksv5Read sys c = _
    rw [← apply_closeOn hout, socksv5Read, if_pos hrun.relay_eq]
    rfl
  | clientWrite sys =>
    have hout := relayWrite_spec sys .client h
    obtain ⟨u, hu⟩ := applied_relayed forced hout
    refine ⟨_, u, ?_, hu⟩
    show socksv5Write sys c = _
    rw [← apply_closeOn hout, socksv5Write, if_pos hrun.relay_eq]
    rfl
  | originRead sys =>
    obtain ⟨heof, hroom⟩ := armed_read (d := .origin) h hen
    obtain ⟨u, hu⟩ := applied_relayed forced (relayRead_spec sys .origin h heof hroom)
    exact ⟨_, u, rfl, hu⟩
  | originWrite sys =>
    obtain ⟨u, hu⟩ := applied_relayed forced (relayWrite_spec sys .origin h)
    refine ⟨_, u, ?_, hu⟩
    simp [handle, originWrite, hrun.relay_eq]
  | blockDone sys =>
    rw [Enabled, hrun.job_eq] at hen
    exact absurd hen.1 (by decide)
  | dnsFinished error result queued =>
    rw [Enabled, hrun.job_eq] at hen
    exact absurd hen (by decide)
  | connectFinished outcome =>
    have hrun' : Running { c with originSock := connectStatus outcome } := { hrun with }
    exact ⟨_, _, rfl, relay_unnoticed h hrun' (fun d => by cases d <;> rfl)
      (fun d => by cases d <;> rfl) (fun d => by cases d <;> rfl) (fun d => by cases d <;> rfl) rfl⟩
  | addUser name pass =>
    have hrun' : Running { c with users := (userTableAdd c.users name pass).2 } := { hrun with }
    exact ⟨_, _, rfl, relay_unnoticed h hrun' (fun d => by cases d <;> rfl)
      (fun d => by cases d <;> rfl) (fun d => by cases d <;> rfl) (fun d => by cases d <;> rfl) rfl⟩
  | removeUser name =>
    have hrun' : Running { c with users := (userTableRemove c.users name).2 } := { hrun with }
    exact ⟨_, _, rfl, relay_unnoticed h hrun' (fun d => by cases d <;> rfl)
      (fun d => by cases d <;> rfl) (fun d => by cases d <;> rfl) (fun d => by cases d <;> rfl) rfl⟩
  | forceClose =>
    have htrace : c.trace = c.trace ++ [] := (List.append_nil _).symm
    obtain ⟨u, hu⟩ := closed_relayed hrun htrace (by simp) (by simpa using h.flowing)
      (Or.inr (Or.inr (hforced rfl)))
    exact ⟨_, u, congrArg some (running_close hrun), hu⟩

end Relay

section Life

/-- Where a connection is in its life; `forced` allows the server to close it. -/
inductive Phase (forced : Prop) (c : Conn) : Prop
  | negotiating {s : Stage} (hfits : Fits s c) (hist : History s c.trace)
  | broken {s : Stage} (hclosed : Closed c) (hrelay : c.relayStarted = false)
      (heof : ∀ d, eof c d = false) (hist : History s c.trace)
  | relaying {t : List Call} (hswitched : Switched c.trace t) (hrelaying : Relaying t c)
      (hcalls : ∀ call ∈ t, RelayCall call ∨ ∃ side, call = .close side)
  | relayed {t : List Call} (hswitched : Switched c.trace t) (hclosed : Closed c)
      (hrelay : c.relayStarted = true) (hflow : ∀ d, Flowing t c d)
      (hcalls : ∀ call ∈ t, RelayCall call ∨ ∃ side, call = .close side)
      (hwhy : Failed t ∨ Finished c ∨ forced)

/-- Nothing happens to the sockets, buffers and flags of a closed connection. -/
structure Still (c c' : Conn) : Prop where
  closed_spec : Closed c'
  trace_eq : c'.trace = c.trace
  relay_eq : c'.relayStarted = c.relayStarted
  current_eq : c'.current = c.current
  inbound_eq : ∀ d, inbound c' d = inbound c d
  eof_eq : ∀ d, eof c' d = eof c d
  shutdown_eq : ∀ d, writeShutdown c' d = writeShutdown c d

theorem closed_step (h : Closed c) (hen : Enabled c e) :
    ∃ c', handle c e = some c' ∧ Still c c' := by
  have hclient : ∀ op, ¬ armed c.clientItem op := by
    rintro op ⟨i, hi, -⟩
    exact absurd (h.clientItem_eq.symm.trans hi) (by simp)
  have horigin : ∀ op, ¬ armed c.originItem op := by
    rintro op ⟨i, hi, -⟩
    exact absurd (h.originItem_eq.symm.trans hi) (by simp)
  cases e with
  | clientRead sys => exact absurd hen (hclient _)
  | clientWrite sys => exact absurd hen (hclient _)
  | originRead sys => exact absurd hen (horigin _)
  | originWrite sys => exact absurd hen (horigin _)
  | blockDone sys =>
    rw [Enabled, h.clientItem_eq] at hen
    exact absurd hen.2 (by simp)
  | connectFinished outcome =>
    exact ⟨_, rfl, ⟨h.closing_eq, h.cancelled_eq, h.clientItem_eq, h.originItem_eq⟩, rfl, rfl, rfl,
      fun d => by cases d <;> rfl, fun d => by cases d <;> rfl, fun d => by cases d <;> rfl⟩
  | dnsFinished error result queued =>
    have heq : dnsWorkerStore error result queued c =
        { c with dnsPending := false, dnsJob := .idle } := by
      simp [dnsWorkerStore, h.cancelled_eq]
    refine ⟨_, congrArg some heq, ⟨h.closing_eq, h.cancelled_eq, h.clientItem_eq,
      h.originItem_eq⟩, rfl, rfl, rfl, ?_, ?_, ?_⟩ <;> intro d <;> cases d <;> rfl
  | addUser name pass =>
    exact ⟨_, rfl, ⟨h.closing_eq, h.cancelled_eq, h.clientItem_eq, h.originItem_eq⟩, rfl, rfl, rfl,
      fun d => by cases d <;> rfl, fun d => by cases d <;> rfl, fun d => by cases d <;> rfl⟩
  | removeUser name =>
    exact ⟨_, rfl, ⟨h.closing_eq, h.cancelled_eq, h.clientItem_eq, h.originItem_eq⟩, rfl, rfl, rfl,
      fun d => by cases d <;> rfl, fun d => by cases d <;> rfl, fun d => by cases d <;> rfl⟩
  | forceClose =>
    exact ⟨c, congrArg some h.close_eq, h, rfl, rfl, rfl, fun _ => rfl, fun _ => rfl, fun _ => rfl⟩

private theorem tidy_init : Tidy (bufferInit RAW_BUFFER_SIZE) where
  limit_eq := by simp
  whole := by simp

/-- socks5_init leaves a connection that waits for the hello. -/
theorem init_fits (fd : ℕ) (users : Table) : Fits (.hello []) (socks5Init fd users) where
  closing_eq := rfl
  cancelled_eq := rfl
  relay_eq := rfl
  eof_eq := fun d => by cases d <;> rfl
  clientFd_isSome := rfl
  clientRegistered_eq := rfl
  clientItem_eq := rfl
  readTidy := tidy_init
  writeTidy := tidy_init
  received_eq := by simp [socks5Init, Stage.consumed]
  sent_eq := by simp [socks5Init, Stage.output]
  pending_iff := by simp [socks5Init, Stage.interest, OP_READ, OP_WRITE]
  parsed := ⟨Or.inl ⟨rfl, rfl⟩, trivial, by simp [socks5Init], rfl, rfl, ⟨rfl, rfl, rfl⟩,
    rfl, rfl, rfl, rfl, rfl, rfl⟩

theorem init_history (fd : ℕ) (users : Table) :
    History (.hello []) (socks5Init fd users).trace where
  consumed_prefix := List.nil_prefix
  sent_prefix := List.nil_prefix
  past := trivial
  gated := by simp [socks5Init]
  unstarted := by simp [socks5Init]
  untouched := ⟨rfl, rfl⟩

theorem phase_init (fd : ℕ) (users : Table) : Phase forced (socks5Init fd users) :=
  .negotiating (init_fits fd users) (init_history fd users)

private theorem failed_append_right (h : Failed u) (t : List Call) : Failed (t ++ u) := by
  rcases h with ⟨side, n, hmem⟩ | ⟨side, bytes, hmem⟩
  · exact Or.inl ⟨side, n, List.mem_append_right t hmem⟩
  · exact Or.inr ⟨side, bytes, List.mem_append_right t hmem⟩

/-- The step lemma. -/
theorem phase_step (h : Phase forced c) (hen : Enabled c e) (hforced : e = .forceClose → forced) :
    ∃ c', handle c e = some c' ∧ Phase forced c' := by
  cases h with
  | negotiating hfits hist =>
    obtain ⟨c', u, heq, hcalls, hout⟩ := negotiation_step hfits hen
    refine ⟨c', heq, ?_⟩
    cases hout with
    | turn hfits' hturn hu =>
      exact .negotiating hfits' (turn_history hfits hist hcalls hfits' hturn hu)
    | ended hended hu =>
      exact .broken hended.closed_spec hended.relay_eq hended.eof_eq
        (ended_history hist hcalls hended hu)
    | begins hbegins =>
      exact .relaying (begins_switched hfits hist hcalls hbegins) hbegins.relaying (by simp)
  | broken hclosed hrelay heof hist =>
    obtain ⟨c', heq, hstill⟩ := closed_step hclosed hen
    rw [← hstill.trace_eq] at hist
    exact ⟨c', heq, .broken hstill.closed_spec (hstill.relay_eq.trans hrelay)
      (fun d => (hstill.eof_eq d).trans (heof d)) hist⟩
  | relaying hswitched hrel ht =>
    obtain ⟨c', u, heq, hstep⟩ := relay_step hrel hen hforced
    have hswitched' := hswitched.append u
    rw [← hstep.trace_eq] at hswitched'
    refine ⟨c', heq, ?_⟩
    have hall := List.forall_mem_append.mpr ⟨ht, hstep.calls⟩
    rcases hstep.goes with hrel' | ⟨hclosed, hwhy⟩
    · exact .relaying hswitched' hrel' hall
    · exact .relayed hswitched' hclosed hstep.relay_eq hstep.flowing hall
        (hwhy.imp_left fun hfail => failed_append_right hfail _)
  | relayed hswitched hclosed hrelay hflow ht hwhy =>
    obtain ⟨c', heq, hstill⟩ := closed_step hclosed hen
    refine ⟨c', heq, .relayed (hstill.trace_eq ▸ hswitched) hstill.closed_spec
      (hstill.relay_eq.trans hrelay) (fun d => ?_) ht (hwhy.imp_right ?_)⟩
    · exact (hflow d).of_eq (hstill.inbound_eq d) (hstill.eof_eq d) (hstill.shutdown_eq _)
    · intro hfin
      refine hfin.imp_left fun hfin d => ?_
      rw [hstill.eof_eq, hstill.inbound_eq]
      exact hfin d

/-- No call of `u` asks the kernel to write nothing. -/
def WritesSome (u : List Call) : Prop := ∀ side bytes w, .write side bytes w ∈ u → bytes ≠ []

/-- No call of `u` asks the kernel to read nothing. -/
def ReadsSome (u : List Call) : Prop := ∀ side n r, .read side n r ∈ u → n ≠ 0

private theorem relayCalls_some (h : ∀ call ∈ u, RelayCall call ∨ ∃ side, call = .close side) :
    WritesSome u ∧ ReadsSome u := by
  constructor
  · intro side bytes w hmem
    rcases h _ hmem with hcall | ⟨_, heq⟩
    · exact hcall
    · exact absurd heq (by simp)
  · intro side n r hmem
    rcases h _ hmem with hcall | ⟨_, heq⟩
    · exact hcall
    · exact absurd heq (by simp)

/-- Writes always have something to say; whether reads have room for an answer
depends, in negotiation, on what the parsers left in the buffer. -/
theorem phase_moves (h : Phase forced c) (hen : Enabled c e) :
    ∃ c' u, handle c e = some c' ∧ c'.trace = c.trace ++ u ∧ WritesSome u ∧
      ((∀ s, Fits s c → s.interest = OP_READ → bufferWritePtr c.readBuffer ≠ 0) →
        ReadsSome u) := by
  cases h with
  | negotiating hfits hist =>
    obtain ⟨c', u, heq, hcalls, -⟩ := negotiation_step hfits hen
    refine ⟨c', u, heq, hcalls.trace_eq, fun side bytes w hmem => ?_, fun hroom side n r hmem => ?_⟩
    · exact (hcalls.writes side bytes w hmem).2
    · obtain ⟨-, hs, rfl⟩ := hcalls.reads side n r hmem
      exact hroom _ hfits hs
  | relaying hswitched hrel ht =>
    obtain ⟨c', u, heq, hstep⟩ := relay_step hrel hen fun _ => trivial
    obtain ⟨hwrites, hreads⟩ := relayCalls_some hstep.calls
    exact ⟨c', u, heq, hstep.trace_eq, hwrites, fun _ => hreads⟩
  | broken hclosed hrelay heof hist =>
    obtain ⟨c', heq, hstill⟩ := closed_step hclosed hen
    exact ⟨c', [], heq, by rw [hstill.trace_eq, List.append_nil], by simp [WritesSome],
      by simp [ReadsSome]⟩
  | relayed hswitched hclosed hrelay hflow ht hwhy =>
    obtain ⟨c', heq, hstill⟩ := closed_step hclosed hen
    exact ⟨c', [], heq, by rw [hstill.trace_eq, List.append_nil], by simp [WritesSome],
      by simp [ReadsSome]⟩

theorem phase_of_step {a b : Conn} (h : Phase forced a) (hstep : Step a e b)
    (hforced : e = .forceClose → forced) : Phase forced b := by
  obtain ⟨hen, heq⟩ := hstep
  obtain ⟨c', hc', hphase⟩ := phase_step h hen hforced
  rw [heq, Option.some.injEq] at hc'
  rw [hc']
  exact hphase

theorem fits_of_open (h : Phase forced c) (hopen : c.closing = false)
    (hrelay : c.relayStarted = false) : ∃ s, Fits s c ∧ History s c.trace := by
  cases h with
  | negotiating hfits hist => exact ⟨_, hfits, hist⟩
  | broken hclosed hrelay' heof hist =>
    rw [hclosed.closing_eq] at hopen
    exact absurd hopen (by decide)
  | relaying hswitched hrel ht =>
    rw [hrel.running.relay_eq] at hrelay
    exact absurd hrelay (by decide)
  | relayed hswitched hclosed hrelay' hflow ht hwhy =>
    rw [hclosed.closing_eq] at hopen
    exact absurd hopen (by decide)

theorem relaying_of_open (h : Phase forced c) (hopen : c.closing = false)
    (hrelay : c.relayStarted = true) : ∃ t, Switched c.trace t ∧ Relaying t c := by
  cases h with
  | negotiating hfits hist =>
    rw [hfits.relay_eq] at hrelay
    exact absurd hrelay (by decide)
  | broken hclosed hrelay' heof hist =>
    rw [hclosed.closing_eq] at hopen
    exact absurd hopen (by decide)
  | relaying hswitched hrel ht => exact ⟨_, hswitched, hrel⟩
  | relayed hswitched hclosed hrelay' hflow ht hwhy =>
    rw [hclosed.closing_eq] at hopen
    exact absurd hopen (by decide)

theorem eof_of_negotiation (h : Phase forced c) (hrelay : c.relayStarted = false) (d : Side) :
    eof c d = false := by
  cases h with
  | negotiating hfits hist => exact hfits.eof_eq d
  | broken hclosed hrelay' heof hist => exact heof d
  | relaying hswitched hrel ht =>
    rw [hrel.running.relay_eq] at hrelay
    exact absurd hrelay (by decide)
  | relayed hswitched hclosed hrelay' hflow ht hwhy =>
    rw [hrelay'] at hrelay
    exact absurd hrelay (by decide)

theorem closed_of_closing (h : Phase forced c) (hclosing : c.closing = true) : Closed c := by
  cases h with
  | negotiating hfits hist =>
    rw [hfits.closing_eq] at hclosing
    exact absurd hclosing (by decide)
  | broken hclosed hrelay' heof hist => exact hclosed
  | relaying hswitched hrel ht =>
    rw [hrel.running.closing_eq] at hclosing
    exact absurd hclosing (by decide)
  | relayed hswitched hclosed hrelay' hflow ht hwhy => exact hclosed

/-- A connection that is still in negotiation got there by a turn of the dialogue. -/
theorem turn_of_step {a b : Conn} (h : Phase forced a) (hstep : Step a e b)
    (hopen : b.closing = false) (hrelay : b.relayStarted = false) :
    ∃ s s', Fits s a ∧ History s a.trace ∧ Fits s' b ∧ Turn a b s e s' := by
  obtain ⟨hen, heq⟩ := hstep
  cases h with
  | negotiating hfits hist =>
    obtain ⟨c', u, hc', -, hout⟩ := negotiation_step hfits hen
    rw [heq, Option.some.injEq] at hc'
    subst hc'
    cases hout with
    | turn hfits' hturn hu => exact ⟨_, _, hfits, hist, hfits', hturn⟩
    | ended hended hu =>
      rw [hended.closed_spec.closing_eq] at hopen
      exact absurd hopen (by decide)
    | begins hbegins =>
      rw [hbegins.relaying.running.relay_eq] at hrelay
      exact absurd hrelay (by decide)
  | broken hclosed hrelay' heof hist =>
    obtain ⟨c', hc', hstill⟩ := closed_step hclosed hen
    rw [heq, Option.some.injEq] at hc'
    rw [hc', hstill.closed_spec.closing_eq] at hopen
    exact absurd hopen (by decide)
  | relaying hswitched hrel ht =>
    obtain ⟨c', u, hc', hstep⟩ := relay_step hrel hen fun _ => trivial
    rw [heq, Option.some.injEq] at hc'
    rw [hc', hstep.relay_eq] at hrelay
    exact absurd hrelay (by decide)
  | relayed hswitched hclosed hrelay' hflow ht hwhy =>
    obtain ⟨c', hc', hstill⟩ := closed_step hclosed hen
    rw [heq, Option.some.injEq] at hc'
    rw [hc', hstill.closed_spec.closing_eq] at hopen
    exact absurd hopen (by decide)

/-- The run lemma: every reachable connection is in a phase of its life. -/
theorem phase_run {fd : ℕ} {users : Table} {es : List Event}
    (h : Run Step (socks5Init fd users) es c) : Phase True c :=
  h.invariant (phase_init fd users) fun ha hab => phase_of_step ha hab fun _ => trivial

/-- Nobody but the connection itself closes it. -/
theorem phase_run_unforced {fd : ℕ} {users : Table} {es : List Event}
    (h : Run (Guarded Step fun _ e => e ≠ .forceClose) (socks5Init fd users) es c) :
    Phase False c :=
  h.invariant (phase_init fd users) fun ha hab => phase_of_step ha hab.2 hab.1

theorem writesSome_run {fd : ℕ} {users : Table} {es : List Event}
    (h : Run Step (socks5Init fd users) es c) : WritesSome c.trace := by
  apply h.invariant_with (phase_init fd users) (I := Phase True) (J := fun c => WritesSome c.trace)
    (by simp [WritesSome, socks5Init]) (fun ha hab => phase_of_step ha hab fun _ => trivial)
  rintro a b e ha - hJ ⟨hen, heq⟩
  obtain ⟨c', u, hc', htrace, hu, -⟩ := phase_moves ha hen
  rw [heq, Option.some.injEq] at hc'
  rw [hc', htrace]
  intro side bytes w hmem
  rcases List.mem_append.mp hmem with hmem | hmem
  · exact hJ side bytes w hmem
  · exact hu side bytes w hmem

end Life

section Sessions

/-! Events of a session in which the kernel grants every call. -/

def granting (read : ReadResult) (socket : ℕ) : Sys where
  read := read
  write := .accept 4096
  getsockopt := none
  attempt := fun _ => { socket := .ok socket, setNio := none, connect := .ok, register := true }
  getsockname := none
  spawn := .started

/-- The client sends `bytes`, or closes when there are none. -/
def arrives : List UInt8 → Event
  | [] => .clientRead (granting .eof 6)
  | b :: rest => .clientRead (granting (.data b rest) 6)

def flushes : Event := .clientWrite (granting .again 6)

/-- A connection on descriptor 5 to a server that knows one user, `u` with password `p`. -/
def accepted : Conn := socks5Init 5 (userTableAdd userTableInit [117] [112]).2

/-- The three messages of a client that wants 10.0.0.1 on port 80. -/
def helloBytes : List UInt8 := [5, 1, 2]

def authBytes : List UInt8 := [1, 1, 117, 1, 112]

def connectBytes : List UInt8 := [5, 1, 0, 1, 10, 0, 0, 1, 0, 80]

def userLogin : Login := { methods := [2], uname := [117], passwd := [112] }

theorem userLogin_valid : userLogin.Valid :=
  ⟨by decide, by decide, by decide, List.mem_cons_self⟩

/-- The session of a client that waits for each reply. -/
def politely : List Event :=
  [arrives helloBytes, flushes, arrives authBytes, flushes, arrives connectBytes, flushes]

end Sessions

end SocksProxy.Lifetime
