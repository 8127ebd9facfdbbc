import SocksProxy.Interests
import SocksProxy.RelayFidelity

/-!
A read of zero bytes means the end of file only if there was room for a byte.
The relay arms a read when there is; the negotiation arms it by state, and what
the parsers leave unread may fill the buffer.
-/
namespace SocksProxy.ReadRoom

open ByteBuffer ByteScan Hello Auth Request UserTable Kernel Stm ConnState Connection
open Stages Dialing Reading RelayFlow RelayHandlers Turns Lifetime Interests Runs

variable {s s' : Stage} {e : Event} {c c' : Conn} {forced : Prop}

/-- A read of the client socket that fills the buffer to its last byte, with a
hello or an accepted authentication that is followed by more. -/
def Overfills (c : Conn) : Event → Prop
  | .clientRead sys => ∃ w, Arrived c sys w ∧ w.length = bufferWritePtr c.readBuffer ∧
      (stateOf c = .helloRead ∧ (∃ methods r, methods.length ≤ 255 ∧
          SOCKS_HELLO_USERNAME_PASSWORD ∈ methods ∧ r ≠ [] ∧
          received .client c.trace ++ w = helloMessage methods ++ r) ∨
        stateOf c = .authRead ∧ ∃ (l : Login) (r : List UInt8), l.Valid ∧
          userTableLookup c.users (cString l.uname) (cString l.passwd) = true ∧ r ≠ [] ∧
          received .client c.trace ++ w = l.message ++ r)
  | _ => False

/-- The negotiation reads on from here, at once or when its reply is out. -/
def ReadsOn (c : Conn) : Prop :=
  stateOf c = .helloRead ∨ stateOf c = .authRead ∨ stateOf c = .requestRead ∨
    (stateOf c = .helloWrite ∧ c.hello.data = SOCKS_HELLO_USERNAME_PASSWORD) ∨
    (stateOf c = .authWrite ∧ c.authStatus = AUTH_STATUS_SUCCESS)

/-- There is room for the next read. -/
def Roomy (c : Conn) : Prop :=
  c.closing = false → c.relayStarted = false → ReadsOn c → bufferWritePtr c.readBuffer ≠ 0

/-- The stages that read on. -/
def Reads : Stage → Prop
  | .hello _ => True
  | .helloReply methods => SOCKS_HELLO_USERNAME_PASSWORD ∈ methods
  | .auth _ _ => True
  | .authReply _ accepted => accepted = true
  | .request _ _ => True
  | _ => False

private theorem fits_readsOn (h : Fits s c) (hreads : ReadsOn c) : Reads s := by
  have hparsed := h.parsed
  rw [ReadsOn, fits_stateOf h] at hreads
  cases s with
  | hello seen => trivial
  | helloReply methods =>
    by_contra hnot
    have hmem : SOCKS_HELLO_USERNAME_PASSWORD ∉ methods := hnot
    have hdata : c.hello.data = method methods := hparsed.2.1
    rw [method, if_neg hmem] at hdata
    simp [Stage.state, hdata, SOCKS_HELLO_NO_ACCEPTABLE_METHODS,
      SOCKS_HELLO_USERNAME_PASSWORD] at hreads
  | auth methods seen => trivial
  | authReply l accepted =>
    by_contra hnot
    have hfalse : ¬ accepted = true := hnot
    have hstatus : c.authStatus = authStatusOf accepted := hparsed.2.1
    rw [authStatusOf, if_neg hfalse] at hstatus
    simp [Stage.state, hstatus, AUTH_STATUS_FAILURE, AUTH_STATUS_SUCCESS] at hreads
  | request l seen => trivial
  | connecting l atyp address port => simp [Stage.state] at hreads
  | reply l message code bind => simp [Stage.state] at hreads

private theorem reads_readsOn (h : Fits s c) (hs : Reads s) : ReadsOn c := by
  have hparsed := h.parsed
  rw [ReadsOn, fits_stateOf h]
  cases s with
  | hello seen => exact Or.inl rfl
  | helloReply methods =>
    have hdata : c.hello.data = method methods := hparsed.2.1
    have hmem : SOCKS_HELLO_USERNAME_PASSWORD ∈ methods := hs
    rw [method, if_pos hmem] at hdata
    exact Or.inr (Or.inr (Or.inr (Or.inl ⟨rfl, hdata⟩)))
  | auth methods seen => exact Or.inr (Or.inl rfl)
  | authReply l accepted =>
    have hstatus : c.authStatus = authStatusOf accepted := hparsed.2.1
    have htrue : accepted = true := hs
    rw [authStatusOf, if_pos htrue] at hstatus
    exact Or.inr (Or.inr (Or.inr (Or.inr ⟨rfl, hstatus⟩)))
  | request l seen => exact Or.inr (Or.inr (Or.inl rfl))
  | connecting l atyp address port => exact hs.elim
  | reply l message code bind => exact hs.elim

/-- An empty buffer has all its room. -/
private theorem roomy_of_empty (h : Fits s c) (hnil : bufferReadPtr c.readBuffer = []) :
    bufferWritePtr c.readBuffer ≠ 0 := by
  rw [h.readTidy.whole hnil]
  decide

/-- What is left of the room after a message was consumed. -/
private theorem took_room {sys : Sys} {w r : List UInt8} (h : Fits s' c')
    (htook : Took c sys w c' r) (hfull : bufferWritePtr c'.readBuffer = 0) :
    r ≠ [] ∧ w.length = bufferWritePtr c.readBuffer := by
  obtain ⟨hne, harr, hw, hrest⟩ := htook
  have hr : r ≠ [] := by
    rintro rfl
    exact roomy_of_empty h hrest.contents_eq hfull
  refine ⟨hr, ?_⟩
  rw [hrest.room_eq, if_neg hr, bufferWritePtr_put] at hfull
  omega

/-- A turn that reads no message keeps the room, or empties the buffer. -/
private theorem roomy_turn (hfits : Fits s c) (hist : History s c.trace) (hroomy : Roomy c)
    (hguard : ¬ Overfills c e)
    (hfits' : Fits s' c') (hturn : Turn c c' s e s') : Roomy c' := by
  intro _ _ hreads hfull
  have hs' := fits_readsOn hfits' hreads
  have hsame : Reads s → c'.readBuffer = c.readBuffer → False := by
    intro hs hbuffer
    rw [hbuffer] at hfull
    exact hroomy hfits.closing_eq hfits.relay_eq (reads_readsOn hfits hs) hfull
  cases hturn with
  | wait hbuffer hsock => exact hsame hs' hbuffer
  | hello hne harr hseen => exact roomy_of_empty hfits' hfits'.parsed.2.2.1 hfull
  | @helloDone seen w methods r sys htook hlen hsplit =>
    obtain ⟨hr, hw⟩ := took_room hfits' htook hfull
    refine hguard ⟨w, htook.2.1, hw, Or.inl ⟨fits_stateOf hfits, methods, r, hlen, hs', hr, ?_⟩⟩
    rw [hfits.received_eq, hfits.parsed.2.2.1, List.append_nil]
    exact hsplit
  | helloSent hmem hbuffer hstatus => exact hsame hmem hbuffer
  | auth hne harr hseen =>
    refine roomy_of_empty hfits' (hfits'.parsed.2.2.2.1 ?_) hfull
    simp [hne]
  | @authDone methods seen w u p r sys accepted htook hu hp hsplit hlookup hcall =>
    obtain ⟨hr, hw⟩ := took_room hfits' htook hfull
    have hlogin : Login.Valid ⟨methods, u, p⟩ := ⟨hist.past.1, hu, hp, hist.past.2⟩
    refine hguard ⟨w, htook.2.1, hw, Or.inr ⟨fits_stateOf hfits, _, r, hlogin,
      hlookup.trans hs', hr, ?_⟩⟩
    rw [hfits.received_eq]
    simp only [Stage.consumed, Login.message, List.append_assoc]
    rw [hsplit]
  | authSent hbuffer hreply => exact hsame rfl hbuffer
  | request hne harr hseen =>
    refine roomy_of_empty hfits' (hfits'.parsed.2.2.2.1 ?_) hfull
    simp [hne]
  | requestDone htook hsplit hends hdecided hpending hsock => exact hs'
  | requestDialed htook hsplit hdecided => exact hs'
  | dialed hbuffer hevent hpending hsock => exact hs'

private theorem roomy_step {a b : Conn} (h : Phase forced a) (hroomy : Roomy a)
    (hguard : ¬ Overfills a e) (hstep : Step a e b) : Roomy b := by
  intro hopen hrelay
  obtain ⟨s, s', hfits, hist, hfits', hturn⟩ := turn_of_step h hstep hopen hrelay
  exact roomy_turn hfits hist hroomy hguard hfits' hturn hopen hrelay

/-- A read whose result was empty although the kernel had bytes to give. -/
theorem eof_of_zero_read {n : ℕ} {r : ReadResult} (hn : n ≠ 0)
    (h : ∃ l, sysRead n r = .ok l ∧ l.val = []) : r = .eof := by
  obtain ⟨l, hl, hnil⟩ := h
  cases r with
  | data b rest =>
    obtain rfl := Except.ok.inj hl
    simp [hn] at hnil
  | eof => rfl
  | again => exact absurd hl (by simp [sysRead])
  | fail => exact absurd hl (by simp [sysRead])

private theorem roomy_reads (h : Phase forced c) (hroomy : Roomy c) (side : Side)
    (harmed : armed (itemOf c side) FdInterest.read) : bufferWritePtr (inbound c side) ≠ 0 := by
  obtain ⟨i, hi, hread⟩ := harmed
  by_cases hopen : c.closing = false
  swap
  · have hclosed := closed_of_closing h (by simpa using hopen)
    cases side with
    | client => exact absurd (hclosed.clientItem_eq.symm.trans hi) (by simp)
    | origin => exact absurd (hclosed.originItem_eq.symm.trans hi) (by simp)
  by_cases hrelay : c.relayStarted = false
  · obtain ⟨s, hfits, -⟩ := fits_of_open h hopen hrelay
    cases side with
    | client =>
      have hstate := (fits_agrees hfits).read ⟨i, hi, hread⟩
      refine hroomy hopen hrelay ?_
      rcases hstate with hst | hst | hst
      · exact Or.inl hst
      · exact Or.inr (Or.inl hst)
      · exact Or.inr (Or.inr (Or.inl hst))
    | origin =>
      -- before relay the origin is armed for writing only
      have hne : i ≠ OP_NOOP := by
        rintro rfl
        exact absurd hread (by decide)
      obtain ⟨l, atyp, address, port, -, horigin, -⟩ := OriginStages.armed_connecting hfits hi hne
      obtain rfl := Option.some.inj (horigin.2.1.symm.trans hi)
      exact absurd hread (by decide)
  · obtain ⟨t, -, hrel⟩ := relaying_of_open h hopen (by simpa using hrelay)
    rw [hrel.item_eq, Option.some.injEq] at hi
    subst hi
    rw [wanted, Bool.and_eq_true, bufferCanWrite_iff] at hread
    omega

private theorem moves_step {a b : Conn} (h : Phase forced a) (hroomy : Roomy a)
    (hreads : ReadsSome a.trace) (hstep : Step a e b) : ReadsSome b.trace := by
  obtain ⟨hen, heq⟩ := hstep
  obtain ⟨c', u, hc', htrace, -, hu⟩ := phase_moves h hen
  rw [heq, Option.some.injEq] at hc'
  rw [hc', htrace]
  have hsome : ReadsSome u := hu fun s hfits hs =>
    roomy_reads h hroomy .client ⟨_, hfits.clientItem_eq, by rw [hs]; rfl⟩
  intro side n r hmem
  rcases List.mem_append.mp hmem with hmem | hmem
  · exact hreads side n r hmem
  · exact hsome side n r hmem

/-- In every run in which no read overfills the buffer, an armed read has room,
no read was made without, and the end of file was read where it is flagged. -/
theorem reads_have_room {fd : ℕ} {users : Table} {es : List Event}
    (h : Run (Guarded Step fun c e => ¬ Overfills c e) (socks5Init fd users) es c) :
    (∀ side, armed (itemOf c side) FdInterest.read → bufferWritePtr (inbound c side) ≠ 0) ∧
      (∀ side n r, .read side n r ∈ c.trace →
        n ≠ 0 ∧ ((∃ l, sysRead n r = .ok l ∧ l.val = []) → r = .eof)) ∧
      ∀ side, eof c side = true → SawEof side c.trace := by
  have hphase := phase_run h.of_guarded
  have hinit : Roomy (socks5Init fd users) ∧ ReadsSome (socks5Init fd users).trace :=
    ⟨fun _ _ _ => roomy_of_empty (init_fits fd users) (init_fits fd users).parsed.2.2.1,
      by simp [ReadsSome, socks5Init]⟩
  have hroomy : Roomy c ∧ ReadsSome c.trace := by
    apply h.invariant_with (phase_init fd users) (I := Phase True)
      (J := fun c => Roomy c ∧ ReadsSome c.trace) hinit
      (fun ha hab => phase_of_step ha hab.2 fun _ => trivial)
    rintro a b e ha - ⟨hroomy, hreads⟩ ⟨hguard, hstep⟩
    exact ⟨roomy_step ha hroomy hguard hstep, moves_step ha hroomy hreads hstep⟩
  refine ⟨roomy_reads hphase hroomy.1, fun side n r hmem => ?_, fun side heof => ?_⟩
  · have hn := hroomy.2 side n r hmem
    exact ⟨hn, eof_of_zero_read hn⟩
  · by_cases hrelay : c.relayStarted = true
    · obtain ⟨t, hswitched, hflow, -⟩ := RelayFidelity.phase_relay hphase hrelay
      obtain ⟨n, hmem⟩ := (hflow side).eof_iff.mp heof
      rw [RelayFidelity.switched_split hswitched]
      exact ⟨n, List.mem_append_right _ (List.mem_cons_of_mem _ hmem)⟩
    · rw [eof_of_negotiation hphase (by simpa using hrelay)] at heof
      exact absurd heof (by decide)

/-- The hello and its tail leave one byte of the buffer free. -/
theorem reads_have_room_start : ∃ c,
    Run Step accepted [arrives (helloBytes ++ List.replicate 4092 0), flushes] c ∧
    armed c.clientItem FdInterest.read ∧ bufferWritePtr c.readBuffer ≠ 0 := by
  have hplayed : ((dispatch accepted (arrives (helloBytes ++ List.replicate 4092 0))).bind fun c =>
      (dispatch c flushes).map fun c' => decide (armed c'.clientItem FdInterest.read)) =
        some true := by decide +kernel
  obtain ⟨d, hread, hplayed⟩ := Option.bind_eq_some_iff.mp hplayed
  obtain ⟨c, hflushed, harmed⟩ := Option.map_eq_some_iff.mp hplayed
  have harmed := of_decide_eq_true harmed
  -- one byte more, and the read would fill the buffer
  have hsmall : ¬ Overfills accepted (arrives (helloBytes ++ List.replicate 4092 0)) := by
    rintro ⟨w, harr, hlen, -⟩
    have hroom : bufferWritePtr accepted.readBuffer = 4096 := by decide +kernel
    rw [← harr, hroom] at hlen
    exact absurd hlen (by decide +kernel)
  have hguarded : Run (Guarded Step fun c e => ¬ Overfills c e) accepted
      [arrives (helloBytes ++ List.replicate 4092 0), flushes] c :=
    (Run.single ⟨hsmall, step_of_dispatch hread⟩).snoc ⟨id, step_of_dispatch hflushed⟩
  exact ⟨c, hguarded.of_guarded, harmed, (reads_have_room hguarded).1 .client harmed⟩

/-- A hello with a tail that fills the buffer: once the method is out, the next
read has no room, and the connection is closed although the client is sending. -/
theorem overfull_hello_closes : ∃ c, Run Step accepted
      [arrives (helloBytes ++ List.replicate 4093 0), flushes] c ∧
    armed c.clientItem FdInterest.read ∧ bufferWritePtr c.readBuffer = 0 ∧
    ∃ c', Step c (arrives authBytes) c' ∧ c'.closing = true ∧
      .read .client 0 (.data 1 [1, 117, 1, 112]) ∈ c'.trace := by
  have hrun : ((replay accepted [arrives (helloBytes ++ List.replicate 4093 0), flushes]).bind
      fun c => (dispatch c (arrives authBytes)).map fun c' =>
        (decide (armed c.clientItem FdInterest.read), bufferWritePtr c.readBuffer, c'.closing,
          decide (.read .client 0 (.data 1 [1, 117, 1, 112]) ∈ c'.trace))) =
      some (true, 0, true, true) := by decide +kernel
  obtain ⟨c, hc, hnext⟩ := Option.bind_eq_some_iff.mp hrun
  obtain ⟨c', hc', hvals⟩ := Option.map_eq_some_iff.mp hnext
  simp only [Prod.mk.injEq, decide_eq_true_eq] at hvals
  obtain ⟨harmed, hroom, hclosing, hmem⟩ := hvals
  exact ⟨c, replay_run hc, harmed, hroom, c', step_of_dispatch hc', hclosing, hmem⟩

end SocksProxy.ReadRoom
