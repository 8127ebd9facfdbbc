import SocksProxy.Lifetime

/-!
State, interest and buffers agree before relay, so every event that the selector
dispatches finds its callback and every reply finds room.
-/
namespace SocksProxy.Interests

open ByteBuffer ByteScan Hello Auth Request UserTable Kernel Stm ConnState Connection
open Stages Dialing Turns Lifetime Runs

variable {s s' : Stage} {e : Event} {c c' : Conn}

/-- The state of the connection, as stm_state reports it. -/
def stateOf (c : Conn) : Socks5State := c.current.getD .helloRead

/-- What OP_READ, OP_WRITE and the write buffer say about the state. -/
structure Agrees (c : Conn) : Prop where
  read : armed c.clientItem FdInterest.read →
    stateOf c = .helloRead ∨ stateOf c = .authRead ∨ stateOf c = .requestRead
  write : armed c.clientItem FdInterest.write →
    (stateOf c = .helloWrite ∨ stateOf c = .authWrite ∨ stateOf c = .requestWrite) ∧
      bufferReadPtr c.writeBuffer ≠ []
  connecting : stateOf c = .connecting →
    ¬ armed c.clientItem FdInterest.read ∧ ¬ armed c.clientItem FdInterest.write

/-- Every reply fits in the write buffer. -/
def RoomToReply (c : Conn) : Prop :=
  (∀ m, helloMarshall c.writeBuffer m ≠ none) ∧ (∀ st, authMarshall c.writeBuffer st ≠ none) ∧
    ∀ reply bind, requestMarshallReply c.writeBuffer reply bind ≠ none

/-- Entering a state that parses initialises its parser. -/
def Initialises (c c' : Conn) : Prop :=
  (stateOf c' = .authRead → stateOf c ≠ .authRead →
    c'.auth = authParserInit c.auth ∧ c'.authStatus = AUTH_STATUS_FAILURE) ∧
  (stateOf c' = .requestRead → stateOf c ≠ .requestRead →
    c'.request = requestParserInit c.request ∧
      c'.requestReply = SOCKS5_REPLY_GENERAL_FAILURE)

theorem fits_stateOf (h : Fits s c) : stateOf c = s.state := by
  have hparsed := h.parsed
  cases s with
  | hello seen =>
    rcases hparsed.1 with ⟨hcur, -⟩ | ⟨hcur, -⟩ <;> simp [stateOf, hcur, Stage.state]
  | helloReply methods => simp [stateOf, hparsed.1, Stage.state]
  | auth methods seen => simp [stateOf, hparsed.1, Stage.state]
  | authReply l accepted => simp [stateOf, hparsed.1, Stage.state]
  | request l seen => simp [stateOf, hparsed.1, Stage.state]
  | connecting l atyp address port => simp [stateOf, hparsed.1, Stage.state]
  | reply l message code bind => simp [stateOf, hparsed.1, Stage.state]

private theorem armed_interest (h : Fits s c) {op : FdInterest → Bool}
    (harmed : armed c.clientItem op) : op s.interest = true := by
  obtain ⟨i, hi, hop⟩ := harmed
  rw [h.clientItem_eq, Option.some.injEq] at hi
  rw [hi]
  exact hop

theorem fits_agrees (h : Fits s c) : Agrees c where
  read := by
    intro harmed
    rw [fits_stateOf h]
    have hread := armed_interest h harmed
    cases s <;> simp_all [Stage.state, Stage.interest, OP_WRITE, OP_NOOP]
  write := by
    intro harmed
    rw [fits_stateOf h, h.pending_iff]
    have hwrite := armed_interest h harmed
    cases s <;> simp_all [Stage.state, Stage.interest, OP_READ, OP_NOOP]
  connecting := by
    rw [fits_stateOf h]
    intro hstate
    constructor
    all_goals
      intro harmed
      have hop := armed_interest h harmed
      cases s <;> simp_all [Stage.state, Stage.interest, OP_NOOP]

theorem closed_agrees (h : Closed c) : Agrees c := by
  have hnone : ∀ op, ¬ armed c.clientItem op := by
    rintro op ⟨i, hi, -⟩
    rw [h.clientItem_eq] at hi
    exact absurd hi (by simp)
  exact ⟨fun harmed => absurd harmed (hnone _), fun harmed => absurd harmed (hnone _),
    fun _ => ⟨hnone _, hnone _⟩⟩

/-- A connection that waits for the client or its origin has an empty write buffer. -/
theorem fits_roomToReply (h : Fits s c) (hs : s.interest ≠ OP_WRITE) : RoomToReply c := by
  have hroom : bufferWritePtr c.writeBuffer = RAW_BUFFER_SIZE :=
    h.writeTidy.whole (Reading.fits_write_empty h hs)
  refine ⟨fun m => ?_, fun st => ?_, fun reply bind => ?_⟩
  · simp [helloMarshall, hroom, RAW_BUFFER_SIZE]
  · simp [authMarshall, hroom, RAW_BUFFER_SIZE]
  · have hlen : (replyMessage reply bind).length ≤ bufferWritePtr c.writeBuffer := by
      rw [hroom]
      exact (replyMessage_length_le reply bind).trans (by decide)
    simp [requestMarshallReply, hlen]

theorem turn_initialises (h : Fits s c) (h' : Fits s' c') (hturn : Turn c c' s e s') :
    Initialises c c' := by
  unfold Initialises
  rw [fits_stateOf h, fits_stateOf h']
  cases hturn with
  | helloSent hmem hbuffer hstatus =>
    refine ⟨fun _ _ => ⟨?_, hstatus⟩, fun heq => absurd heq (by simp [Stage.state])⟩
    obtain ⟨-, -, hauth, -⟩ := h.parsed
    obtain ⟨-, hauth', -⟩ := h'.parsed
    rw [hauth', hauth]
    rfl
  | authSent hbuffer hreply =>
    refine ⟨fun heq => absurd heq (by simp [Stage.state]), fun _ _ => ⟨?_, hreply⟩⟩
    obtain ⟨-, -, -, hrequest, -⟩ := h.parsed
    obtain ⟨-, hrequest', -⟩ := h'.parsed
    rw [hrequest', hrequest]
    rfl
  | wait hbuffer hsock => exact ⟨fun h hne => absurd h hne, fun h hne => absurd h hne⟩
  | hello hne harr hseen => simp [Stage.state]
  | helloDone htook hlen hsplit => simp [Stage.state]
  | auth hne harr hseen => simp [Stage.state]
  | authDone htook hu hp hsplit hlookup hcall => simp [Stage.state]
  | request hne harr hseen => simp [Stage.state]
  | requestDone htook hsplit hends hdecided hpending hsock => simp [Stage.state]
  | requestDialed htook hsplit hdecided => simp [Stage.state]
  | dialed hbuffer hevent hpending hsock => simp [Stage.state]

/-- A state in which a handler may compose a reply. -/
def Replies (st : Socks5State) : Prop :=
  st = .helloRead ∨ st = .authRead ∨ st = .requestRead ∨ st = .connecting

private theorem interest_of_replies (h : Replies s.state) : s.interest ≠ OP_WRITE := by
  cases s <;> simp_all [Replies, Stage.state, Stage.interest, OP_READ, OP_WRITE, OP_NOOP]

/-- In every run, no event aborts and nothing empty is written; before relay the
interests agree with the state, replies have room, and parsers start afresh. -/
theorem interests_agree {fd : ℕ} {users : Table} {es : List Event}
    (h : Run Step (socks5Init fd users) es c) :
    WritesSome c.trace ∧ (∀ e, Enabled c e → handle c e ≠ none) ∧
      (c.relayStarted = false → Agrees c ∧
        (c.closing = false → Replies (stateOf c) → RoomToReply c) ∧
        ∀ e c', Step c e c' → c'.closing = false → Initialises c c') := by
  have hphase := phase_run h
  refine ⟨writesSome_run h, fun e hen => ?_, fun hrelay => ?_⟩
  · obtain ⟨c', heq, -⟩ := phase_step hphase hen fun _ => trivial
    rw [heq]
    simp
  refine ⟨?_, fun hopen hreplies => ?_, fun e c' hstep hopen => ?_⟩
  · by_cases hopen : c.closing = false
    · obtain ⟨s, hfits, -⟩ := fits_of_open hphase hopen hrelay
      exact fits_agrees hfits
    · exact closed_agrees (closed_of_closing hphase (by simpa using hopen))
  · obtain ⟨s, hfits, -⟩ := fits_of_open hphase hopen hrelay
    rw [fits_stateOf hfits] at hreplies
    exact fits_roomToReply hfits (interest_of_replies hreplies)
  · by_cases hrelay' : c'.relayStarted = false
    · obtain ⟨s, s', hfits, -, hfits', hturn⟩ := turn_of_step hphase hstep hopen hrelay'
      exact turn_initialises hfits hfits' hturn
    · have hphase' := phase_of_step hphase hstep fun _ => trivial
      obtain ⟨t, -, hrel⟩ := relaying_of_open hphase' hopen (by simpa using hrelay')
      simp [Initialises, stateOf, hrel.running.current_eq]

theorem interests_agree_hello : ∃ c, replay accepted [arrives helloBytes] = some c ∧
    c.relayStarted = false ∧ Agrees c := by
  have hrun : (replay accepted [arrives helloBytes]).map (fun c => c.relayStarted) =
      some false := by decide +kernel
  obtain ⟨c, hc, hrelay⟩ := Option.map_eq_some_iff.mp hrun
  exact ⟨c, hc, hrelay, ((interests_agree (replay_run hc)).2.2 hrelay).1⟩

end SocksProxy.Interests
