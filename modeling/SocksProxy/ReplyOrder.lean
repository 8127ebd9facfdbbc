import Mathlib.Data.List.TakeWhile
import SocksProxy.Interests

/-!
What the client is told before relay: a method, a status and one reply, each at
most once and in this order, nothing after a refusal, and success only over a
connected origin.
-/
namespace SocksProxy.ReplyOrder

open ByteBuffer ByteScan Hello Auth Request UserTable Kernel Stm ConnState Connection
open Stages Dialing OriginStages RelayHandlers Turns Lifetime Interests Runs

variable {s : Stage} {e : Event} {c c' : Conn} {t : List Call} {forced : Prop}

/-- The calls before the relay starts. -/
def beforeRelay (t : List Call) : List Call := t.takeWhile (· ≠ .startRelay)

/-- The client messages in `t` call for the answer `full`; `last` tells that the
connection ends with it. -/
inductive Spoken (t : List Call) : List UInt8 → (last : Bool) → Prop
  | silent : Spoken t [] false
  | refused {methods : List UInt8} (hparsed : helloMessage methods <+: received .client t)
      (hlen : methods.length ≤ 255) (hmem : SOCKS_HELLO_USERNAME_PASSWORD ∉ methods) :
      Spoken t [0x05, 0xFF] true
  | selected {methods : List UInt8} (hparsed : helloMessage methods <+: received .client t)
      (hlen : methods.length ≤ 255) (hmem : SOCKS_HELLO_USERNAME_PASSWORD ∈ methods) :
      Spoken t [0x05, 0x02] false
  | denied {l : Login} (hvalid : l.Valid) (hparsed : l.message <+: received .client t)
      (hlookup : LookedUp l false t) : Spoken t ([0x05, 0x02] ++ [0x01, 0x01]) true
  | admitted {l : Login} (hvalid : l.Valid) (hparsed : l.message <+: received .client t)
      (hlookup : LookedUp l true t) : Spoken t ([0x05, 0x02] ++ [0x01, 0x00]) false
  | answered {l : Login} {code atyp : UInt8} {addr port : List UInt8} (hgate : Gate l t)
      (hshape : atyp = SOCKS5_ATYP_IPV4 ∧ addr.length = 4 ∨
        atyp = SOCKS5_ATYP_IPV6 ∧ addr.length = 16) (hport : port.length = 2) :
      Spoken t ([0x05, 0x02] ++ [0x01, 0x00] ++ ([0x05, code, 0x00, atyp] ++ addr ++ port))
        (code ≠ SOCKS5_REPLY_SUCCEEDED)

/-- The answer of this stage ends the connection. -/
def isLast : Stage → Bool
  | .helloReply methods => SOCKS_HELLO_USERNAME_PASSWORD ∉ methods
  | .authReply _ accepted => !accepted
  | .reply _ _ code _ => code ≠ SOCKS5_REPLY_SUCCEEDED
  | _ => false

theorem past_spoken (hparsed : s.consumed <+: received .client t) (hpast : s.Past t) :
    Spoken t s.output (isLast s) := by
  cases s with
  | hello seen => exact .silent
  | helloReply methods =>
    by_cases hmem : SOCKS_HELLO_USERNAME_PASSWORD ∈ methods
    · have hlast : isLast (.helloReply methods) = false := by simp [isLast, hmem]
      rw [hlast, Stage.output, method, if_pos hmem]
      exact .selected hparsed hpast hmem
    · have hlast : isLast (.helloReply methods) = true := by simp [isLast, hmem]
      rw [hlast, Stage.output, method, if_neg hmem]
      exact .refused hparsed hpast hmem
  | auth methods seen =>
    exact .selected ((List.prefix_append _ _).trans hparsed) hpast.1 hpast.2
  | authReply l accepted =>
    obtain ⟨hvalid, hlookup⟩ := hpast
    cases accepted with
    | true => exact .admitted hvalid hparsed hlookup
    | false => exact .denied hvalid hparsed hlookup
  | request l seen => exact .admitted hpast.valid hpast.parsed hpast.accepted
  | connecting l atyp address port => exact .admitted hpast.valid hpast.parsed hpast.accepted
  | reply l message code bind =>
    obtain ⟨atyp, addr, port, heq, hport, hshape⟩ := replyMessage_cases code bind
    rw [Stage.output, heq]
    exact .answered hpast hshape hport

/-- A refusal that is out has closed its connection. -/
theorem fits_not_last (h : Fits s c) (hlast : isLast s = true) :
    sent .client c.trace ≠ s.output := by
  intro hall
  have hs : s.interest = OP_WRITE := by
    cases s <;> first | rfl | exact absurd hlast (by simp [isLast])
  have hpending := h.pending_iff.mpr hs
  have hsent := h.sent_eq
  rw [hall] at hsent
  exact hpending (List.append_cancel_left (hsent.trans (List.append_nil _).symm))

private theorem ne_startRelay {call : Call} (h : ¬ Starts call) : call ≠ .startRelay := by
  rintro rfl
  exact h trivial

theorem beforeRelay_of_unstarted (h : ∀ call ∈ t, ¬ Starts call) : beforeRelay t = t := by
  refine List.takeWhile_eq_self_iff.mpr fun call hmem => ?_
  exact decide_eq_true (ne_startRelay (h call hmem))

theorem beforeRelay_switched {t₀ : List Call} (h : ∀ call ∈ t₀, ¬ Starts call)
    (name : List UInt8) (dest : Destination) (port : ℕ) (t : List Call) :
    beforeRelay (t₀ ++ .accessLogAdd name dest port :: .startRelay :: t) =
      t₀ ++ [.accessLogAdd name dest port] := by
  unfold beforeRelay
  rw [List.takeWhile_append_of_pos fun call hmem => decide_eq_true (ne_startRelay (h call hmem))]
  simp

private theorem switched_spoken {full : List Call} (h : Switched full t) :
    ∃ answer, Spoken (beforeRelay full) answer false ∧
      sent .client (beforeRelay full) = answer := by
  obtain ⟨l, atyp, address, port, bind, dest, t₀, -, hist, hsent, rfl⟩ := h
  rw [beforeRelay_switched hist.unstarted]
  refine ⟨_, past_spoken (s := .reply l (requestMessage SOCKS5_CMD_CONNECT atyp address port)
    SOCKS5_REPLY_SUCCEEDED bind) ?_ (hist.past.append _), ?_⟩
  · rw [received_append]
    exact hist.consumed_prefix.trans (List.prefix_append _ _)
  · rw [sent_append, hsent]
    exact List.append_nil _

/-- The negotiated part of the trace, in every phase: the relay starts when all
of the answer is out. -/
theorem phase_spoken (h : Phase forced c) :
    ∃ full last, Spoken (beforeRelay c.trace) full last ∧
      sent .client (beforeRelay c.trace) <+: full ∧
      (last = true → sent .client (beforeRelay c.trace) = full → c.closing = true) ∧
      (c.relayStarted = true → last = false ∧ sent .client (beforeRelay c.trace) = full) := by
  cases h with
  | negotiating hfits hist =>
    rw [beforeRelay_of_unstarted hist.unstarted]
    refine ⟨_, _, past_spoken hist.consumed_prefix hist.past, hist.sent_prefix, ?_, ?_⟩
    · intro hlast hall
      exact absurd hall (fits_not_last hfits hlast)
    · intro hrelay
      rw [hfits.relay_eq] at hrelay
      exact absurd hrelay (by decide)
  | broken hclosed hrelay' heof hist =>
    rw [beforeRelay_of_unstarted hist.unstarted]
    refine ⟨_, _, past_spoken hist.consumed_prefix hist.past, hist.sent_prefix,
      fun _ _ => hclosed.closing_eq, ?_⟩
    intro hrelay
    rw [hrelay'] at hrelay
    exact absurd hrelay (by decide)
  | relaying hswitched hrel ht =>
    obtain ⟨answer, hspoken, hsent⟩ := switched_spoken hswitched
    exact ⟨answer, false, hspoken, hsent ▸ List.prefix_rfl, fun hlast => absurd hlast (by decide),
      fun _ => ⟨rfl, hsent⟩⟩
  | relayed hswitched hclosed hrelay' hflow ht hwhy =>
    obtain ⟨answer, hspoken, hsent⟩ := switched_spoken hswitched
    exact ⟨answer, false, hspoken, hsent ▸ List.prefix_rfl, fun hlast => absurd hlast (by decide),
      fun _ => ⟨rfl, hsent⟩⟩

section Success

/-- The kernel reports a connecting socket as writable only after connect() has
finished. -/
def Settled (c : Conn) : Event → Prop
  | .originWrite _ => c.relayStarted = false → c.originSock ≠ .inProgress
  | _ => True

/-- A success reply belongs to a connected origin. -/
def Backed (c : Conn) : Prop :=
  c.closing = false → c.relayStarted = false → stateOf c = .requestWrite →
    c.requestReply = SOCKS5_REPLY_SUCCEEDED → c.originSock = .ok

private theorem dialed_sock {l : Login} {atyp : UInt8} {address : List UInt8}
    {port : UInt8 × UInt8} (hfits : Fits (.connecting l atyp address port) c)
    (hevent : ∃ sys, e = .originWrite sys ∨ e = .blockDone sys) (hen : Enabled c e)
    (hsettled : Settled c e) : c.originSock ≠ .inProgress ∨ c.originItem = none := by
  obtain ⟨sys, rfl | rfl⟩ := hevent
  · exact Or.inl (hsettled hfits.relay_eq)
  · obtain ⟨-, -, -, -, -, hnone⟩ := queued_connecting hfits (by simp [hen.1])
    exact Or.inr hnone.2.1

private theorem backed_turn {s' : Stage} (hfits : Fits s c) (hbacked : Backed c)
    (hen : Enabled c e) (hsettled : Settled c e) (hfits' : Fits s' c')
    (hturn : Turn c c' s e s') : Backed c' := by
  intro _ _ hstate hreply
  rw [fits_stateOf hfits'] at hstate
  cases hturn with
  | wait hbuffer hsock =>
    have hok : c.originSock = .ok := by
      apply hbacked hfits.closing_eq hfits.relay_eq ((fits_stateOf hfits).trans hstate)
      cases s with
      | reply l message code bind =>
        rw [hfits.parsed.2.1, ← hfits'.parsed.2.1]
        exact hreply
      | _ => exact absurd hstate (by simp [Stage.state])
    rcases hsock with heq | hprog | hconn
    · exact heq.trans hok
    · rw [hok] at hprog
      exact absurd hprog (by decide)
    · rw [hstate] at hconn
      exact absurd hconn (by decide)
  | requestDone htook hsplit hends hdecided hpending hsock =>
    rw [hfits'.parsed.2.1] at hreply
    exact hsock hreply
  | dialed hbuffer hevent hpending hsock =>
    rw [hfits'.parsed.2.1] at hreply
    exact hsock hreply (dialed_sock hfits hevent hen hsettled)
  | hello hne harr hseen => exact absurd hstate (by simp [Stage.state])
  | helloDone htook hlen hsplit => exact absurd hstate (by simp [Stage.state])
  | helloSent hmem hbuffer hstatus => exact absurd hstate (by simp [Stage.state])
  | auth hne harr hseen => exact absurd hstate (by simp [Stage.state])
  | authDone htook hu hp hsplit hlookup hcall => exact absurd hstate (by simp [Stage.state])
  | authSent hbuffer hreply => exact absurd hstate (by simp [Stage.state])
  | request hne harr hseen => exact absurd hstate (by simp [Stage.state])
  | requestDialed htook hsplit hdecided => exact absurd hstate (by simp [Stage.state])

theorem backed_step {a b : Conn} (h : Phase forced a) (hbacked : Backed a) (hsettled : Settled a e)
    (hstep : Step a e b) : Backed b := by
  intro hopen hrelay
  obtain ⟨s, s', hfits, -, hfits', hturn⟩ := turn_of_step h hstep hopen hrelay
  exact backed_turn hfits hbacked hstep.1 hsettled hfits' hturn hopen hrelay

/-- The origin socket is registered and its connect() has succeeded. -/
structure Connected (c : Conn) : Prop where
  originFd_isSome : c.originFd.isSome
  originItem_isSome : c.originItem.isSome
  originRegistered_eq : c.originRegistered = true
  originSock_eq : c.originSock = .ok

/-- The method, the status, the version of the reply and its success code. -/
def successPrefix : List UInt8 := [0x05, 0x02] ++ [0x01, 0x00] ++ [0x05, SOCKS5_REPLY_SUCCEEDED]

private theorem output_success (h : successPrefix <+: s.output) :
    ∃ l message bind, s = .reply l message SOCKS5_REPLY_SUCCEEDED bind := by
  have hlen := h.length_le
  cases s with
  | reply l message code bind =>
    obtain ⟨atyp, addr, port, heq, -, -⟩ := replyMessage_cases code bind
    simp only [Stage.output, successPrefix, heq, List.cons_append, List.nil_append,
      List.cons_prefix_cons] at h
    obtain ⟨-, -, -, -, -, hcode, -⟩ := h
    exact ⟨l, message, bind, by rw [hcode]⟩
  | _ => simp [Stage.output, successPrefix] at hlen

private theorem fits_connected (hfits : Fits s c) (hbacked : Backed c)
    (h : successPrefix <+: sent .client c.trace ++ bufferReadPtr c.writeBuffer) : Connected c := by
  rw [hfits.sent_eq] at h
  obtain ⟨l, message, bind, rfl⟩ := output_success h
  obtain ⟨-, hreply, -, -, horigin⟩ := hfits.parsed
  rw [if_pos rfl] at horigin
  obtain ⟨⟨hfd, hitem, hreg⟩, -⟩ := horigin
  exact ⟨hfd, by simp [hitem], hreg,
    hbacked hfits.closing_eq hfits.relay_eq (fits_stateOf hfits) hreply⟩

private theorem begins_connected {a b : Conn} (h : Phase forced a) (hbacked : Backed a)
    (hstep : Step a e b) (ha : a.relayStarted = false) (hb : b.relayStarted = true) :
    Connected b := by
  obtain ⟨hen, heq⟩ := hstep
  cases h with
  | negotiating hfits hist =>
    obtain ⟨c', u, hc', -, hout⟩ := negotiation_step hfits hen
    rw [heq, Option.some.injEq] at hc'
    subst hc'
    cases hout with
    | turn hfits' hturn hu =>
      rw [hfits'.relay_eq] at hb
      exact absurd hb (by decide)
    | ended hended hu =>
      rw [hended.relay_eq] at hb
      exact absurd hb (by decide)
    | begins hbegins =>
      have hrun := hbegins.relaying.running
      refine ⟨hrun.originFd_isSome, hrun.originItem_isSome, hrun.originRegistered_eq, ?_⟩
      rw [hbegins.sock_eq]
      exact hbacked hfits.closing_eq hfits.relay_eq (fits_stateOf hfits) hfits.parsed.2.1
  | relaying hswitched hrel ht =>
    rw [hrel.running.relay_eq] at ha
    exact absurd ha (by decide)
  | broken hclosed hrelay heof hist =>
    obtain ⟨c', hc', hstill⟩ := closed_step hclosed hen
    rw [heq, Option.some.injEq] at hc'
    rw [hc', hstill.relay_eq, hrelay] at hb
    exact absurd hb (by decide)
  | relayed hswitched hclosed hrelay hflow ht hwhy =>
    rw [hrelay] at ha
    exact absurd ha (by decide)

/-- In every run in which the kernel reports sockets as it should, the bytes
written before relay are a beginning of the answer that the client's messages
call for; a refusal that is out has closed the connection; and a success code,
pending or out, stands for a connected origin, as does the start of the relay. -/
theorem reply_order {fd : ℕ} {users : Table} {es : List Event}
    (h : Run (Guarded Step Settled) (socks5Init fd users) es c) :
    (∃ full last, Spoken (beforeRelay c.trace) full last ∧
      sent .client (beforeRelay c.trace) <+: full ∧
      (last = true → sent .client (beforeRelay c.trace) = full → c.closing = true) ∧
      (c.relayStarted = true → last = false ∧ sent .client (beforeRelay c.trace) = full)) ∧
    (c.relayStarted = false → c.closing = false →
      successPrefix <+: sent .client c.trace ++ bufferReadPtr c.writeBuffer → Connected c) ∧
    ∀ e c', Guarded Step Settled c e c' → c.relayStarted = false → c'.relayStarted = true →
      Connected c' := by
  have hphase := phase_run h.of_guarded
  have hbacked : Backed c := by
    apply h.invariant_with (phase_init fd users) (I := Phase True) (J := Backed)
      (by simp [Backed, stateOf, socks5Init])
      (fun ha hab => phase_of_step ha hab.2 fun _ => trivial)
    intro a b e ha _ hJ hab
    exact backed_step ha hJ hab.1 hab.2
  refine ⟨phase_spoken hphase, fun hrelay hopen hbytes => ?_, fun e c' hstep hrelay hstart =>
    begins_connected hphase hbacked hstep.2 hrelay hstart⟩
  obtain ⟨s, hfits, -⟩ := fits_of_open hphase hopen hrelay
  exact fits_connected hfits hbacked hbytes

theorem reply_order_polite : ∃ c, replay accepted politely = some c ∧
    ∃ full last, Spoken (beforeRelay c.trace) full last ∧
      sent .client (beforeRelay c.trace) = full := by
  have hrun : (replay accepted politely).map (fun c => c.relayStarted) = some true := by
    decide +kernel
  obtain ⟨c, hc, hrelay⟩ := Option.map_eq_some_iff.mp hrun
  have hguarded : Run (Guarded Step Settled) accepted politely c := by
    apply (replay_run hc).guarded
    simp [politely, arrives, flushes, helloBytes, authBytes, connectBytes, Settled]
  obtain ⟨⟨full, last, hspoken, -, -, hall⟩, -⟩ := reply_order hguarded
  exact ⟨c, hc, full, last, hspoken, (hall hrelay).2⟩

end Success

end SocksProxy.ReplyOrder
