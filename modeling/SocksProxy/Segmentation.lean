import SocksProxy.Interests
import SocksProxy.RelayFidelity
import SocksProxy.Verdict

/-!
How the client's bytes are cut into reads should not matter. It does where one
read brings two messages: the second is kept, but its parser runs only when more
bytes arrive. Where no read does, a connection that has come to rest has given
the verdict of its stream.
-/
namespace SocksProxy.Segmentation

open ByteBuffer ByteScan Hello Auth Request UserTable Kernel Stm ConnState Connect Connection
open Stages Dialing Reading RequestReads OriginStages Turns Lifetime Interests Lockstep Verdict Runs

variable {s s' : Stage} {e : Event} {c c' : Conn} {kernel : Sys} {dials : List Event}
variable {found : List UInt8 → List UInt8 → Bool} {stream : List UInt8}

section Statement

/-- While it negotiates, the connection reads what fits into its buffer, writes
one byte or more of a reply, and is not closed by the server. -/
def playable (c : Conn) (e : Event) : Bool :=
  !c.closing && !c.relayStarted && match e with
    | .clientRead sys => match sys.read with
      | .data _ rest => decide (rest.length < bufferWritePtr c.readBuffer)
      | _ => false
    | .clientWrite sys => match sys.write with
      | .accept n => decide (n ≠ 0)
      | _ => false
    | .forceClose => false
    | _ => true

/-- Whichever read completes the request, the kernel answers as `kernel` does. -/
def Repeats (kernel : Sys) : Event → Prop
  | .clientRead sys => sys = { kernel with read := sys.read }
  | _ => True

/-- A read that completes an accepted hello or authentication and brings the next
message, to its end, along. -/
def Bunches (c : Conn) : Event → Prop
  | .clientRead sys => ∃ w, Arrived c sys w ∧
      (stateOf c = .helloRead ∧ (∃ methods m r, methods.length ≤ 255 ∧
          SOCKS_HELLO_USERNAME_PASSWORD ∈ methods ∧
          Ends authParserFeed (fun p => authIsDone p.state) authStart m ∧
          received .client c.trace ++ w = helloMessage methods ++ (m ++ r)) ∨
        stateOf c = .authRead ∧ ∃ (l : Login) (m r : List UInt8), l.Valid ∧
          userTableLookup c.users (cString l.uname) (cString l.passwd) = true ∧
          Ends requestParserFeed (fun p => requestIsDone p.state) requestStart m ∧
          received .client c.trace ++ w = l.message ++ (m ++ r))
  | _ => False

/-- The credential lookups had the outcomes `found`. -/
def Answers (found : List UInt8 → List UInt8 → Bool) (t : List Call) : Prop :=
  ∀ users name pass, .lookup users name pass ∈ t → userTableLookup users name pass = found name pass

/-- Something other than client input is about to happen. -/
def Pending (c : Conn) : Prop :=
  armed c.clientItem FdInterest.write ∨ armed c.originItem FdInterest.read ∨
    armed c.originItem FdInterest.write ∨ c.dnsJob ≠ .idle ∨ c.originSock = .inProgress

/-- The negotiation is over, or nothing is pending and the stream is read as far
as the connection wants it. -/
def AtRest (stream : List UInt8) (c : Conn) : Prop :=
  c.closing = true ∨ c.relayStarted = true ∨
    ¬ Pending c ∧ (received .client c.trace = stream ∨ ¬ armed c.clientItem FdInterest.read)

theorem playable_open (h : playable c e = true) : c.closing = false ∧ c.relayStarted = false := by
  simp only [playable, Bool.and_eq_true, Bool.not_eq_true'] at h
  exact h.1

theorem playable_read {sys : Sys} (h : playable c (.clientRead sys) = true) :
    ∃ b rest, sys.read = .data b rest ∧ rest.length < bufferWritePtr c.readBuffer := by
  simp only [playable, Bool.and_eq_true] at h
  cases hr : sys.read with
  | data b rest =>
    rw [hr] at h
    exact ⟨b, rest, rfl, of_decide_eq_true h.2⟩
  | _ => simp [hr] at h

theorem playable_write {sys : Sys} (h : playable c (.clientWrite sys) = true) :
    ∃ n, sys.write = .accept n ∧ n ≠ 0 := by
  simp only [playable, Bool.and_eq_true] at h
  cases hw : sys.write with
  | accept n =>
    rw [hw] at h
    exact ⟨n, rfl, of_decide_eq_true h.2⟩
  | _ => simp [hw] at h

theorem not_playable_forceClose : playable c .forceClose = false := by simp [playable]

end Statement

section Promises

/-- The reply that a reference connection has stored. -/
structure Replied (d : Conn) (code : UInt8) (bind : Option (SockAddr × ℕ)) : Prop where
  pending_eq : bufferReadPtr d.writeBuffer = replyMessage code bind
  reply_eq : d.requestReply = code
  current_eq : d.current = some .requestWrite

/-- No message is complete among the bytes that a stage has not parsed, and the
origin is where it would be without segments. -/
def Held (kernel : Sys) (dials : List Event) (c : Conn) : Stage → Prop
  | .hello _ => dials = []
  | .helloReply methods => dials = [] ∧
      (SOCKS_HELLO_USERNAME_PASSWORD ∈ methods → AuthUnfinished (bufferReadPtr c.readBuffer))
  | .auth _ seen => dials = [] ∧ AuthUnfinished (seen ++ bufferReadPtr c.readBuffer)
  | .authReply _ accepted => dials = [] ∧
      (accepted = true → RequestUnfinished (bufferReadPtr c.readBuffer))
  | .request _ seen => dials = [] ∧ RequestUnfinished (seen ++ bufferReadPtr c.readBuffer)
  | .connecting _ atyp address port =>
    Alike c (dialled kernel dials (requestSeen (requestMessage SOCKS5_CMD_CONNECT atyp address port)))
  | .reply _ m code bind =>
    Ends requestParserFeed (fun p => requestIsDone p.state) requestStart m ∧
      Replied (dialled kernel dials (requestSeen m)) code bind

theorem dialled_snoc (kernel : Sys) (dials : List Event) (e : Event) (p : RequestParser) :
    dialled kernel (dials ++ [e]) p =
      (handle (dialled kernel dials p) e).getD (dialled kernel dials p) := by
  simp only [dialled, List.foldl_append, List.foldl_cons, List.foldl_nil]

/-- The dial events after one more event. -/
private theorem dials_snoc (es : List Event) (e : Event) :
    (es ++ [e]).filter IsDial = es.filter IsDial ++ [e].filter IsDial := List.filter_append ..

private theorem filter_dial (h : IsDial e = true) : [e].filter IsDial = [e] := by simp [h]

private theorem filter_not_dial (h : IsDial e = false) : [e].filter IsDial = [] := by simp [h]

/-- Before the request nothing happens to an origin. -/
private theorem early_not_dial (hnone : NoOrigin c) (hidle : Undialed c) (hen : Enabled c e) :
    IsDial e = false := by
  cases e with
  | originWrite sys =>
    obtain ⟨i, hi, -⟩ := hen
    rw [hnone.2.1] at hi
    exact absurd hi (by simp)
  | blockDone sys =>
    have hjob := hidle.1.symm.trans hen.1
    exact absurd hjob (by decide)
  | connectFinished outcome =>
    have hsock := hidle.2.1.symm.trans hen
    exact absurd hsock (by decide)
  | dnsFinished error result queued =>
    have hjob := hidle.1.symm.trans hen
    exact absurd hjob (by decide)
  | _ => rfl

/-- In CONNECTING what does not touch the origin touches nothing that counts. -/
private theorem connecting_unnoticed {l : Login} {atyp : UInt8} {address : List UInt8}
    {port : UInt8 × UInt8} {d : Conn} (h : Fits (.connecting l atyp address port) c)
    (hplay : playable c e = true) (hstep : Step c e c') (hdial : IsDial e = false)
    (halike : Alike c d) : Alike c' d := by
  obtain ⟨hen, heq⟩ := hstep
  have hnoop : ∀ op : FdInterest → Bool, armed c.clientItem op → op OP_NOOP = true := by
    rintro op ⟨i, hi, hop⟩
    rw [h.clientItem_eq, Option.some.injEq] at hi
    rw [show OP_NOOP = i from hi]
    exact hop
  cases e with
  | clientRead sys => exact absurd (hnoop _ hen) (by decide)
  | clientWrite sys => exact absurd (hnoop _ hen) (by decide)
  | originRead sys =>
    obtain ⟨i, hi, hread⟩ := hen
    obtain ⟨l, atyp, address, port, -, horigin, -⟩ := armed_connecting h hi (by
      rintro rfl
      exact absurd hread (by decide))
    obtain rfl := Option.some.inj (horigin.2.1.symm.trans hi)
    exact absurd hread (by decide)
  | addUser name pass =>
    obtain rfl := Option.some.inj heq
    exact ⟨halike.dial_eq, halike.pending_eq, halike.room_eq⟩
  | removeUser name =>
    obtain rfl := Option.some.inj heq
    exact ⟨halike.dial_eq, halike.pending_eq, halike.room_eq⟩
  | forceClose => simp [playable] at hplay
  | originWrite sys => simp [IsDial] at hdial
  | blockDone sys => simp [IsDial] at hdial
  | connectFinished outcome => simp [IsDial] at hdial
  | dnsFinished error result queued => simp [IsDial] at hdial

/-- Once the reply is stored, at most the kernel has something to add. -/
private theorem reply_dial {l : Login} {m : List UInt8} {code : UInt8}
    {bind : Option (SockAddr × ℕ)} (h : Fits (.reply l m code bind) c) (hen : Enabled c e)
    (hdial : IsDial e = true) : ∃ outcome, e = .connectFinished outcome := by
  have hjob : c.dnsJob = .idle := h.parsed.2.2.2.1
  cases e with
  | originWrite sys =>
    obtain ⟨i, hi, hwrite⟩ := hen
    obtain ⟨l, atyp, address, port, hs, -⟩ := armed_connecting h hi (by
      rintro rfl
      exact absurd hwrite (by decide))
    exact absurd hs (by simp)
  | blockDone sys => exact absurd (hjob.symm.trans hen.1) (by decide)
  | connectFinished outcome => exact ⟨outcome, rfl⟩
  | dnsFinished error result queued => exact absurd (hjob.symm.trans hen) (by decide)
  | _ => exact absurd hdial (by simp [IsDial])

/-- The reply of a connection in lockstep with `d`. -/
private theorem replied_of_alike {l : Login} {m : List UInt8} {code : UInt8}
    {bind : Option (SockAddr × ℕ)} {d : Conn} (h : Fits (.reply l m code bind) c)
    (hpending : bufferReadPtr c.writeBuffer = replyMessage code bind) (halike : Alike c d) :
    Replied d code bind where
  pending_eq := halike.pending_eq.symm.trans hpending
  reply_eq := by
    rw [← h.parsed.2.1]
    exact (field_of_dial (fun x => x.requestReply) (fun _ => rfl) halike.dial_eq).symm
  current_eq := by
    rw [← h.parsed.1]
    exact (field_of_dial (fun x => x.current) (fun _ => rfl) halike.dial_eq).symm

/-- The kernel's answers to the request are those of the read that completed it. -/
private theorem requestDecide_repeats {sys : Sys} (h : Repeats kernel (.clientRead sys)) (k : Conn) :
    requestDecide sys k = requestDecide kernel k := by
  have hloop : ∀ n e ais k, resolvedLoop sys n e ais k = resolvedLoop kernel n e ais k := by
    rw [show sys = _ from h]
    intro n e ais
    induction ais generalizing n e with
    | nil => exact fun k => rfl
    | cons ai rest ih =>
      intro k
      unfold resolvedLoop
      simp only [ih]
  have hresolved : ∀ k, startResolvedConnect sys k = startResolvedConnect kernel k := by
    intro k
    unfold startResolvedConnect
    rw [hloop]
  rw [show sys = _ from h] at hresolved ⊢
  unfold requestDecide connectToOrigin
  simp only [hresolved]
  rfl

/-- The decision about the request starts the lockstep. -/
private theorem decided_alike {l : Login} {seen m : List UInt8} {sys : Sys}
    (h : Fits (.request l seen) c) (hrepeats : Repeats kernel (.clientRead sys))
    (hdecided : Decided c c' sys m) (hopen : c'.closing = false) :
    Alike c' (dialled kernel [] (requestSeen m)) := by
  obtain ⟨hcurrent, -, -, -, -, ⟨hfd, hitem, hreg⟩, ⟨hjob, hsock, hpend, herror, hres, hnext⟩,
    hreply⟩ := h.parsed
  obtain ⟨b, t, rfl⟩ := hdecided
  have hnil : bufferReadPtr c.writeBuffer = [] :=
    fits_write_empty h (by simp [Stage.interest, OP_READ, OP_WRITE])
  have hstart : Alike { c with readBuffer := b, request := requestSeen m, trace := t }
      (requested (requestSeen m)) := by
    refine ⟨?_, ?_, ?_⟩
    · simp [dialOf, requested, socks5Init, hcurrent, hfd, hitem, hreg, hjob, hsock, hpend, herror,
        hres, hnext, hreply, h.relay_eq, h.cancelled_eq, h.clientItem_eq, Stage.interest]
    · rw [show bufferReadPtr c.writeBuffer = [] from hnil]
      simp [requested, socks5Init]
    · rw [show bufferWritePtr c.writeBuffer = _ from h.writeTidy.whole hnil]
      simp [requested, socks5Init]
  rw [requestDecide_repeats hrepeats] at hopen ⊢
  exact applied_alike (requestDecide_agree kernel hstart) hopen

/-- No message is complete where none ends. -/
private theorem unfinished_of_not_ends {σ : Type*} {feed : σ → UInt8 → σ} {fin : σ → Bool} {p : σ}
    {l : List UInt8} (h : ∀ m r, l = m ++ r → ¬ Ends feed fin p m) : Partial feed fin p l := by
  rcases partial_or_ends p l with hpart | ⟨m, r, hsplit, hends⟩
  · exact hpart
  · exact absurd hends (h m r hsplit)

/-- What waits for a reply to go out, or for more bytes, keeps its promise. -/
private theorem held_wait (hfits : Fits s c) (hfits' : Fits s c') (hplay : playable c e = true)
    (hstep : Step c e c') (hbuffer : c'.readBuffer = c.readBuffer) (hheld : Held kernel dials c s) :
    Held kernel (dials ++ [e].filter IsDial) c' s := by
  have hearly : NoOrigin c ∧ Undialed c → dials ++ [e].filter IsDial = dials := fun h => by
    rw [filter_not_dial (early_not_dial h.1 h.2 hstep.1), List.append_nil]
  cases s with
  | hello seen =>
    rw [Held, hearly hfits.parsed.2.2.2.2.2]
    exact hheld
  | helloReply methods =>
    rw [Held, hearly hfits.parsed.2.2.2.2, hbuffer]
    exact hheld
  | auth methods seen =>
    rw [Held, hearly hfits.parsed.2.2.2.2.2, hbuffer]
    exact hheld
  | authReply l accepted =>
    rw [Held, hearly hfits.parsed.2.2.2.2, hbuffer]
    exact hheld
  | request l seen =>
    rw [Held, hearly ⟨hfits.parsed.2.2.2.2.2.1, hfits.parsed.2.2.2.2.2.2.1⟩, hbuffer]
    exact hheld
  | connecting l atyp address port =>
    have halike : Alike c _ := hheld
    by_cases hdial : IsDial e = true
    · obtain ⟨d', hd', halike'⟩ :=
        handle_alike halike hdial hfits.relay_eq hstep.2 hfits'.closing_eq
      rw [Held, filter_dial hdial, dialled_snoc, hd']
      exact halike'
    · have hdial : IsDial e = false := by simpa using hdial
      rw [Held, filter_not_dial hdial, List.append_nil]
      exact connecting_unnoticed hfits hplay hstep hdial halike
  | reply l m code bind =>
    obtain ⟨hends, hreplied⟩ := hheld
    refine ⟨hends, ?_⟩
    by_cases hdial : IsDial e = true
    · obtain ⟨outcome, rfl⟩ := reply_dial hfits hstep.1 hdial
      rw [filter_dial hdial, dialled_snoc]
      exact ⟨hreplied.pending_eq, hreplied.reply_eq, hreplied.current_eq⟩
    · rw [filter_not_dial (by simpa using hdial), List.append_nil]
      exact hreplied

/-- The step lemma: a turn that brings no two messages keeps the promise. -/
private theorem held_turn (hfits : Fits s c) (hist : History s c.trace) (hfits' : Fits s' c')
    (hturn : Turn c c' s e s') (hplay : playable c e = true) (hrepeats : Repeats kernel e)
    (hguard : ¬ Bunches c e) (hstep : Step c e c') (hheld : Held kernel dials c s) :
    Held kernel (dials ++ [e].filter IsDial) c' s' := by
  have hread : ∀ sys, [Event.clientRead sys].filter IsDial = [] := fun _ => rfl
  have hwrite : ∀ sys, [Event.clientWrite sys].filter IsDial = [] := fun _ => rfl
  cases hturn with
  | wait hbuffer hsock => exact held_wait hfits hfits' hplay hstep hbuffer hheld
  | hello hne harr hseen =>
    rw [hread, List.append_nil]
    exact hheld
  | @helloDone seen w methods r sys htook hlen hsplit =>
    rw [hread, List.append_nil]
    obtain ⟨-, harr, hw, hrest⟩ := htook
    refine ⟨hheld, fun hmem => unfinished_of_not_ends fun m r' hr hends => hguard ?_⟩
    refine ⟨w, harr, Or.inl ⟨fits_stateOf hfits, methods, m, r', hlen, hmem, hends, ?_⟩⟩
    rw [hfits.received_eq, hfits.parsed.2.2.1, List.append_nil, ← hr, hrest.contents_eq]
    exact hsplit
  | helloSent hmem hbuffer hstatus =>
    rw [hwrite, List.append_nil]
    obtain ⟨hdials, hunfinished⟩ := hheld
    refine ⟨hdials, ?_⟩
    rw [List.nil_append, hbuffer]
    exact hunfinished hmem
  | auth hne harr hseen =>
    rw [hread, List.append_nil]
    refine ⟨hheld.1, ?_⟩
    rw [hfits'.parsed.2.2.2.1 (by simp [hne]), List.append_nil]
    exact hseen
  | @authDone methods seen w u p r sys accepted htook hu hp hsplit hlookup hcall =>
    rw [hread, List.append_nil]
    obtain ⟨-, harr, hw, hrest⟩ := htook
    have hlogin : Login.Valid ⟨methods, u, p⟩ := ⟨hist.past.1, hu, hp, hist.past.2⟩
    refine ⟨hheld.1, fun haccepted => unfinished_of_not_ends fun m r' hr hends => hguard ?_⟩
    refine ⟨w, harr, Or.inr ⟨fits_stateOf hfits, _, m, r', hlogin, hlookup.trans haccepted,
      hends, ?_⟩⟩
    rw [hfits.received_eq, ← hr, hrest.contents_eq]
    simp only [Stage.consumed, Login.message, List.append_assoc]
    rw [hsplit]
  | authSent hbuffer hreply =>
    rw [hwrite, List.append_nil]
    obtain ⟨hdials, hunfinished⟩ := hheld
    refine ⟨hdials, ?_⟩
    rw [List.nil_append, hbuffer]
    exact hunfinished rfl
  | request hne harr hseen =>
    rw [hread, List.append_nil]
    refine ⟨hheld.1, ?_⟩
    rw [hfits'.parsed.2.2.2.1 (by simp [hne]), List.append_nil]
    exact hseen
  | requestDone htook hsplit hends hdecided hpending hsock =>
    have halike := decided_alike hfits hrepeats hdecided hfits'.closing_eq
    rw [hread, List.append_nil, hheld.1]
    exact ⟨hends, replied_of_alike hfits' hpending halike⟩
  | requestDialed htook hsplit hdecided =>
    rw [hread, List.append_nil, hheld.1]
    exact decided_alike hfits hrepeats hdecided hfits'.closing_eq
  | @dialed l address atyp code port bind e hbuffer hevent hpending hsock =>
    have hdial : IsDial e = true := by
      obtain ⟨sys, rfl | rfl⟩ := hevent <;> rfl
    have hvalid : ValidAddress atyp address := hfits.parsed.2.1
    obtain ⟨d', hd', halike⟩ :=
      handle_alike (d := _) hheld hdial hfits.relay_eq hstep.2 hfits'.closing_eq
    rw [filter_dial hdial]
    refine ⟨(request_ends_message requestParserZero SOCKS5_CMD_CONNECT port hvalid).1, ?_⟩
    rw [dialled_snoc, hd']
    exact replied_of_alike hfits' hpending halike

end Promises

section Judgement

theorem Answers.lookedUp {t : List Call} {l : Login} {accepted : Bool} (h : Answers found t)
    (hlookup : LookedUp l accepted t) : found (cString l.uname) (cString l.passwd) = accepted := by
  obtain ⟨users, hmem, hres⟩ := hlookup
  exact (h users _ _ hmem).symm.trans hres

/-- A stream that opens with an accepted login is judged by its request. -/
private theorem verdict_login {l : Login} (hl : l.Valid) (r : List UInt8) :
    verdict found kernel dials (l.message ++ r) =
      if found (cString l.uname) (cString l.passwd) then requestVerdict kernel dials r
      else ([0x05, 0x02] ++ [0x01, AUTH_STATUS_FAILURE], .error) := by
  rw [Login.message, List.append_assoc, verdict_message hl.methods_le, if_pos hl.offered,
    authVerdict_message hl.uname_le hl.passwd_le]

/-- A connection whose reply is out has given the verdict. -/
private theorem verdict_reply {l : Login} {m : List UInt8} {code : UInt8}
    {bind : Option (SockAddr × ℕ)} {t : List Call} (hgate : Gate l t) (hanswers : Answers found t)
    (hends : Ends requestParserFeed (fun p => requestIsDone p.state) requestStart m)
    (hreplied : Replied (dialled kernel dials (requestSeen m)) code bind) (r : List UInt8) :
    verdict found kernel dials (l.message ++ m ++ r) =
      ((Stage.reply l m code bind).output,
        if code = SOCKS5_REPLY_SUCCEEDED then .relay else .done) := by
  rw [List.append_assoc, verdict_login hgate.valid, if_pos (hanswers.lookedUp hgate.accepted),
    requestVerdict_ends hends, hreplied.pending_eq]
  simp [dialState, hreplied.current_eq, hreplied.reply_eq, Stage.output]

/-- The bytes sent are those of a stage that waits, when nothing was added. -/
private theorem sent_of_waiting {u : List Call} (hfits : Fits s c) (hs : s.interest ≠ OP_WRITE)
    (htrace : c'.trace = c.trace ++ u) (hsome : sent .client c'.trace <+: s.output) :
    sent .client c'.trace = s.output := by
  have hsent := hfits.sent_eq
  rw [fits_write_empty hfits hs, List.append_nil] at hsent
  refine hsome.eq_of_length_le ?_
  rw [htrace, sent_append, hsent, List.length_append]
  omega

/-- A playable event neither fails nor is forced: the connection closes because
of what it has read. -/
private theorem judged_ended {u : List Call} (hfits : Fits s c) (hist : History s c.trace)
    (htrace : c'.trace = c.trace ++ u) (hist' : History s c'.trace) (hended : Ended s e c c')
    (hplay : playable c e = true) (hen : Enabled c e) (hheld : Held kernel dials c s)
    (hanswers : Answers found c'.trace) (r : List UInt8) :
    verdict found kernel (dials ++ [e].filter IsDial) (received .client c'.trace ++ r) =
      (sent .client c'.trace, stateOf c') := by
  have hstate : ∀ {st}, c'.current = some st → stateOf c' = st := fun h => by rw [stateOf, h]; rfl
  obtain ⟨-, -, -, hsome, hending⟩ := hended
  cases hending with
  | forced => exact absurd hplay (by simp [not_playable_forceClose])
  | unread hread =>
    obtain ⟨b, rest, hdata, hlt⟩ := playable_read hplay
    rcases hread with hr | hr | hroom
    · exact absurd (hdata.symm.trans hr) (by simp)
    · exact absurd (hdata.symm.trans hr) (by simp)
    · omega
  | @unsent s sys hsent =>
    obtain ⟨n, haccept, hn⟩ := playable_write hplay
    obtain ⟨i, hi, hwrite⟩ := hen
    have hpending : bufferReadPtr c.writeBuffer ≠ [] := by
      rw [hfits.clientItem_eq, Option.some.injEq] at hi
      exact hfits.pending_iff.mpr (interest_of_write (by rw [hi]; exact hwrite))
    have htake : (bufferReadPtr c.writeBuffer).take n = [] := by
      rw [← hsent]
      simp [Writing.writeCall, Call.sent, haccept]
    rcases List.take_eq_nil_iff.mp htake with h | h
    · exact absurd h hn
    · exact absurd h hpending
  | @helloBad seen w r₀ x sys harr hx hsplit hcurrent hread =>
    have hbytes : received .client c'.trace = x :: r₀ := by
      rw [hread, hfits.received_eq, hfits.parsed.2.2.1, List.append_nil]
      exact hsplit
    have hsent : sent .client c'.trace = [] :=
      sent_of_waiting hfits (by simp [Stage.interest, OP_READ, OP_WRITE]) htrace hsome
    rw [hbytes, hsent, hstate hcurrent]
    exact verdict_bad hx
  | @helloRefused methods sys hmem hcurrent hsent =>
    have hlen : methods.length ≤ 255 := hist.past
    obtain ⟨v, hv⟩ := hist'.consumed_prefix
    have hbytes : helloMessage methods ++ v = received .client c'.trace := hv
    rw [← hbytes, List.append_assoc, verdict_message hlen, if_neg hmem, hsent, hstate hcurrent]
    rfl
  | @authBad methods seen w r₀ x sys harr hx hsplit hcurrent hread =>
    have hpast : methods.length ≤ 255 ∧ SOCKS_HELLO_USERNAME_PASSWORD ∈ methods := hist.past
    have hbytes : received .client c'.trace = helloMessage methods ++ (x :: r₀) := by
      rw [hread, hfits.received_eq, ← hsplit]
      simp only [Stage.consumed, List.append_assoc]
    have hsent := sent_of_waiting hfits (by simp [Stage.interest, OP_READ, OP_WRITE]) htrace hsome
    rw [hbytes, List.append_assoc, verdict_message hpast.1, if_pos hpast.2, hsent, hstate hcurrent]
    exact authVerdict_bad hx
  | @authRefused l sys hcurrent hsent =>
    have hpast : l.Valid ∧ LookedUp l false c'.trace := hist'.past
    obtain ⟨v, hv⟩ := hist'.consumed_prefix
    have hbytes : l.message ++ v = received .client c'.trace := hv
    rw [← hbytes, List.append_assoc, verdict_login hpast.1, hanswers.lookedUp hpast.2, hsent,
      hstate hcurrent]
    rfl
  | @requestRefused l m code bind sys hcode hcurrent hsent =>
    have hgate : Gate l c'.trace := hist'.past
    obtain ⟨hends, hreplied⟩ := hheld
    obtain ⟨v, hv⟩ := hist'.consumed_prefix
    have hbytes : l.message ++ m ++ v = received .client c'.trace := hv
    rw [← hbytes, List.append_assoc, filter_not_dial rfl, List.append_nil,
      verdict_reply hgate hanswers hends hreplied, if_neg hcode, hsent, hstate hcurrent]

/-- A connection that starts to relay has given the verdict. -/
private theorem judged_begins {l : Login} {m : List UInt8} {bind : Option (SockAddr × ℕ)}
    {sys : Sys} {u : List Call} (hist : History (.reply l m SOCKS5_REPLY_SUCCEEDED bind) c.trace)
    (htrace : c'.trace = c.trace ++ u) (hbegins : Begins l m bind sys c c' u)
    (hheld : Held kernel dials c (.reply l m SOCKS5_REPLY_SUCCEEDED bind))
    (hanswers : Answers found c'.trace) (r : List UInt8) :
    verdict found kernel (dials ++ [Event.clientWrite sys].filter IsDial)
        (received .client c'.trace ++ r) = (sent .client c'.trace, stateOf c') := by
  have hgate : Gate l c'.trace := htrace ▸ Gate.append hist.past u
  obtain ⟨hends, hreplied⟩ := hheld
  obtain ⟨v, hv⟩ := hist.consumed_prefix
  have hbytes : received .client c'.trace = l.message ++ m ++ (v ++ received .client u) := by
    rw [htrace, received_append, ← hv]
    simp only [Stage.consumed, List.append_assoc]
  have hsent : sent .client c'.trace = (Stage.reply l m SOCKS5_REPLY_SUCCEEDED bind).output := by
    obtain ⟨atyp, address, port, -, -, dest, hu⟩ := hbegins.request
    rw [← hbegins.sent_eq, htrace, hu, sent_append, sent_append]
    rfl
  have hstate : stateOf c' = .relay := by
    rw [stateOf, hbegins.relaying.running.current_eq]
    rfl
  rw [hbytes, hsent, hstate, filter_not_dial rfl, List.append_nil, List.append_assoc,
    verdict_reply hgate hanswers hends hreplied, if_pos rfl]

end Judgement

section Runs

/-- What a run has made of the bytes it has read. -/
structure Tracks (found : List UInt8 → List UInt8 → Bool) (kernel : Sys) (dials : List Event)
    (c : Conn) : Prop where
  held : c.closing = false → c.relayStarted = false →
    ∃ s, Fits s c ∧ History s c.trace ∧ Held kernel dials c s
  judged : c.closing = true ∨ c.relayStarted = true → Answers found c.trace →
    ∀ r, verdict found kernel dials (received .client c.trace ++ r) =
      (sent .client c.trace, stateOf c)

/-- One message at a time is read, and the environment plays. -/
def Orderly (kernel : Sys) (c : Conn) (e : Event) : Prop :=
  playable c e = true ∧ Repeats kernel e ∧ ¬ Bunches c e

private theorem tracks_step (h : Tracks found kernel dials c) (horderly : Orderly kernel c e)
    (hstep : Step c e c') : Tracks found kernel (dials ++ [e].filter IsDial) c' := by
  obtain ⟨hplay, hrepeats, hguard⟩ := horderly
  obtain ⟨hopen, hrelay⟩ := playable_open hplay
  obtain ⟨s, hfits, hist, hheld⟩ := h.held hopen hrelay
  obtain ⟨k, u, hk, hcalls, hout⟩ := negotiation_step hfits hstep.1
  obtain rfl : c' = k := Option.some.inj (hstep.2.symm.trans hk)
  cases hout with
  | turn hfits' hturn hu =>
    refine ⟨fun _ _ => ⟨_, hfits', turn_history hfits hist hcalls hfits' hturn hu,
      held_turn hfits hist hfits' hturn hplay hrepeats hguard hstep hheld⟩, fun hover => ?_⟩
    rw [hfits'.closing_eq, hfits'.relay_eq] at hover
    exact absurd hover (by decide)
  | ended hended hu =>
    have hist' := ended_history hist hcalls hended hu
    refine ⟨fun hopen' => ?_, fun _ hanswers => judged_ended hfits hist hcalls.trace_eq hist' hended
      hplay hstep.1 hheld hanswers⟩
    rw [hended.closed_spec.closing_eq] at hopen'
    exact absurd hopen' (by decide)
  | begins hbegins =>
    refine ⟨fun _ hrelay' => ?_, fun _ hanswers => judged_begins hist hcalls.trace_eq hbegins hheld
      hanswers⟩
    rw [hbegins.relaying.running.relay_eq] at hrelay'
    exact absurd hrelay' (by decide)

/-- The run lemma. -/
theorem tracks_run {fd : ℕ} {users : Table} {es : List Event}
    (h : Run (Guarded Step (Orderly kernel)) (socks5Init fd users) es c) :
    Tracks found kernel (es.filter IsDial) c := by
  induction h with
  | nil =>
    refine ⟨fun _ _ => ⟨_, init_fits fd users, init_history fd users, rfl⟩, fun hover => ?_⟩
    exact absurd hover (by simp [socks5Init])
  | snoc _ hlast ih =>
    rw [dials_snoc]
    exact tracks_step ih hlast.1 hlast.2

/-- What the client has sent is judged when the connection is at rest. -/
private theorem judged_atRest (h : Tracks found kernel dials c) (hanswers : Answers found c.trace)
    (hstream : received .client c.trace <+: stream) (hrest : AtRest stream c) :
    verdict found kernel dials stream = (sent .client c.trace, stateOf c) := by
  obtain ⟨r, rfl⟩ := hstream
  by_cases hover : c.closing = true ∨ c.relayStarted = true
  · exact h.judged hover hanswers r
  have hclosing : c.closing = false := by simpa using fun h => hover (Or.inl h)
  have hrelay : c.relayStarted = false := by simpa using fun h => hover (Or.inr h)
  obtain ⟨s, hfits, hist, hheld⟩ := h.held hclosing hrelay
  obtain ⟨hquiet, hread⟩ : ¬ Pending c ∧ (received .client c.trace = received .client c.trace ++ r ∨
      ¬ armed c.clientItem FdInterest.read) := by
    rcases hrest with hrest | hrest | hrest
    · exact absurd (Or.inl hrest) hover
    · exact absurd (Or.inr hrest) hover
    · exact hrest
  have hwrite : s.interest ≠ OP_WRITE := fun hs =>
    hquiet (Or.inl ⟨_, hfits.clientItem_eq, by rw [hs]; rfl⟩)
  have hsent : sent .client c.trace = s.output := by
    have hsent := hfits.sent_eq
    rwa [fits_write_empty hfits hwrite, List.append_nil] at hsent
  have hall : s.interest = OP_READ → r = [] := by
    intro hs
    rcases hread with hread | hread
    · simpa using hread
    · exact absurd ⟨_, hfits.clientItem_eq, by rw [hs]; rfl⟩ hread
  rw [hsent, fits_stateOf hfits, hfits.received_eq]
  cases s with
  | helloReply methods => exact absurd rfl hwrite
  | authReply l accepted => exact absurd rfl hwrite
  | reply l m code bind => exact absurd rfl hwrite
  | hello seen =>
    obtain ⟨-, hunfinished, hempty, -⟩ := hfits.parsed
    rw [hall rfl, hempty, List.append_nil, List.append_nil]
    exact verdict_unfinished hunfinished
  | auth methods seen =>
    have hpast : methods.length ≤ 255 ∧ SOCKS_HELLO_USERNAME_PASSWORD ∈ methods := hist.past
    rw [hall rfl, List.append_nil, Stage.consumed, List.append_assoc, verdict_message hpast.1,
      if_pos hpast.2]
    exact authVerdict_unfinished hheld.2
  | request l seen =>
    have hgate : Gate l c.trace := hist.past
    rw [hall rfl, List.append_nil, Stage.consumed, List.append_assoc, verdict_login hgate.valid,
      if_pos (hanswers.lookedUp hgate.accepted)]
    exact requestVerdict_unfinished hheld.2
  | connecting l atyp address port =>
    have hgate : Gate l c.trace := hist.past
    have hends := (request_ends_message requestParserZero SOCKS5_CMD_CONNECT port
      hfits.parsed.2.1).1
    have halike : Alike c _ := hheld
    have hcurrent := field_of_dial (fun x => x.current) (fun _ => rfl) halike.dial_eq
    rw [hfits.parsed.1] at hcurrent
    rw [Stage.consumed, List.append_assoc, List.append_assoc, verdict_login hgate.valid,
      if_pos (hanswers.lookedUp hgate.accepted), requestVerdict_ends hends, ← halike.pending_eq,
      fits_write_empty hfits (by simp [Stage.interest, OP_NOOP, OP_WRITE]), dialState,
      if_pos hcurrent.symm]
    rfl

/-- The connection waits for the client, and what it has not parsed is no
complete message. -/
def NothingUnparsed (c : Conn) : Prop :=
  (stateOf c = .authRead → ∀ m r, bufferReadPtr c.readBuffer = m ++ r →
      ¬ Ends authParserFeed (fun p => authIsDone p.state) c.auth m) ∧
    (stateOf c = .requestRead → ∀ m r, bufferReadPtr c.readBuffer = m ++ r →
      ¬ Ends requestParserFeed (fun p => requestIsDone p.state) c.request m)

private theorem held_nothingUnparsed (hfits : Fits s c) (hheld : Held kernel dials c s) :
    NothingUnparsed c := by
  unfold NothingUnparsed
  rw [fits_stateOf hfits]
  constructor
  · intro hs m r hsplit
    cases s with
    | auth methods seen =>
      have hunfinished := ((partial_append _ _ _).mp hheld.2).2
      rw [hsplit] at hunfinished
      rw [hfits.parsed.2.1]
      exact hunfinished.not_ends
    | _ => exact absurd hs (by simp [Stage.state])
  · intro hs m r hsplit
    cases s with
    | request l seen =>
      have hunfinished := ((partial_append _ _ _).mp hheld.2).2
      rw [hsplit] at hunfinished
      rw [hfits.parsed.2.1]
      exact hunfinished.not_ends
    | _ => exact absurd hs (by simp [Stage.state])

/-- Two orderly runs over one stream, with the same lookups and the same fate of
the origin, say the same and end in the same state; and neither ever waits for
the client with a complete message in its buffer. -/
theorem segmentation_independent {fd fd' : ℕ} {users users' : Table} {es es' : List Event}
    (h : Run (Guarded Step (Orderly kernel)) (socks5Init fd users) es c)
    (h' : Run (Guarded Step (Orderly kernel)) (socks5Init fd' users') es' c')
    (hdials : es.filter IsDial = es'.filter IsDial)
    (hanswers : Answers found c.trace) (hanswers' : Answers found c'.trace) :
    (c.closing = false → c.relayStarted = false → NothingUnparsed c) ∧
      ∀ stream, received .client c.trace <+: stream → received .client c'.trace <+: stream →
        AtRest stream c → AtRest stream c' →
          sent .client c.trace = sent .client c'.trace ∧ stateOf c = stateOf c' := by
  have htracks : Tracks found kernel (es.filter IsDial) c := tracks_run h
  have htracks' : Tracks found kernel (es.filter IsDial) c' := hdials ▸ tracks_run h'
  constructor
  · intro hopen hrelay
    obtain ⟨s, hfits, -, hheld⟩ := htracks.held hopen hrelay
    exact held_nothingUnparsed hfits hheld
  · intro stream hstream hstream' hrest hrest'
    have hverdict := judged_atRest htracks hanswers hstream hrest
    rw [judged_atRest htracks' hanswers' hstream' hrest', Prod.mk.injEq] at hverdict
    exact ⟨hverdict.1.symm, hverdict.2.symm⟩

/-- A read of the sample session that ends within the message that it is for. -/
def inMessage (c : Conn) : Event → Bool
  | .clientRead sys =>
    let w := received .client c.trace ++ (readCall c sys).received .client
    match stateOf c with
    | .helloRead => decide (w <+: helloBytes)
    | .authRead => decide (w <+: helloBytes ++ authBytes)
    | _ => true
  | _ => true

/-- No message follows a message that is not yet over. -/
private theorem not_bunches_inMessage (h : inMessage c e = true) : ¬ Bunches c e := by
  have hhello : ∀ {methods x y : List UInt8}, methods.length ≤ 255 →
      helloMessage methods ++ x <+: helloBytes ++ y → x <+: y := by
    rintro methods x y hlen ⟨rest, hrest⟩
    rw [List.append_assoc, show helloBytes = helloMessage [2] from rfl] at hrest
    exact ⟨rest, ((hello_ends_message onHelloMethod helloStart hlen).unique
      (hello_ends_message onHelloMethod helloStart (by decide)) hrest).2⟩
  have hauth : ∀ {u w x : List UInt8}, u.length ≤ 255 → w.length ≤ 255 →
      authMessage u w ++ x <+: authBytes → x <+: [] := by
    rintro u w x hu hw ⟨rest, hrest⟩
    rw [List.append_assoc, ← List.append_nil authBytes,
      show authBytes = authMessage [117] [112] from rfl] at hrest
    exact ⟨rest, ((auth_ends_message authParserZero hu hw).1.unique
      (auth_ends_message authParserZero (by decide) (by decide)).1 hrest).2⟩
  cases e with
  | clientRead sys =>
    rintro ⟨_, rfl, ⟨hstate, methods, m, r, hlen, -, hends, hsplit⟩ |
      ⟨hstate, l, m, r, hl, -, hends, hsplit⟩⟩
    · simp only [inMessage, hstate, decide_eq_true_eq] at h
      rw [hsplit, ← List.append_nil helloBytes] at h
      exact hends.ne_nil (List.append_eq_nil_iff.mp (List.prefix_nil.mp (hhello hlen h))).1
    · simp only [inMessage, hstate, decide_eq_true_eq] at h
      rw [hsplit, Login.message, List.append_assoc] at h
      have hnil := hauth hl.uname_le hl.passwd_le (hhello hl.methods_le h)
      exact hends.ne_nil (List.append_eq_nil_iff.mp (List.prefix_nil.mp hnil)).1
  | _ => exact id

/-- All lookups in `t` had the outcome that the table `users` gives. -/
def answeredBy (users : Table) (t : List Call) : Bool :=
  t.all fun
    | .lookup table name pass => userTableLookup table name pass == userTableLookup users name pass
    | _ => true

theorem answers_of_answeredBy {users : Table} {t : List Call} (h : answeredBy users t = true) :
    Answers (userTableLookup users) t := by
  intro table name pass hmem
  exact beq_iff_eq.mp (List.all_eq_true.mp h _ hmem)

instance (c : Conn) : Decidable (Pending c) := inferInstanceAs (Decidable (_ ∨ _ ∨ _ ∨ _ ∨ _))

instance (stream : List UInt8) (c : Conn) : Decidable (AtRest stream c) :=
  inferInstanceAs (Decidable (_ ∨ _ ∨ _ ∧ (_ ∨ _)))

/-- Replays the events that pass the test `ok`. -/
def rehearse (ok : Conn → Event → Bool) (es : List Event) : Option Conn :=
  es.foldlM (fun c e => if ok c e then dispatch c e else none) accepted

theorem rehearse_run {ok : Conn → Event → Bool} {es : List Event}
    (h : rehearse ok es = some c) : Run (Guarded Step fun c e => ok c e = true) accepted es c :=
  Run.of_foldlM_guarded step_of_dispatch h

/-- The kernel of the session samples. -/
def sampleKernel : Sys := granting .again 6

private theorem orderly_run {es : List Event}
    (h : rehearse (fun c e => playable c e && inMessage c e) es = some c)
    (hes : ∀ e ∈ es, Repeats sampleKernel e) :
    Run (Guarded Step (Orderly sampleKernel)) accepted es c := by
  have hrepeat : Run (Guarded _ fun _ e => Repeats sampleKernel e) accepted es c :=
    (rehearse_run h).guarded fun e hmem _ => hes e hmem
  refine hrepeat.mono fun {a b e} hab => ?_
  obtain ⟨hrepeats, hok, hstep⟩ := hab
  obtain ⟨hplay, hin⟩ := Bool.and_eq_true_iff.mp hok
  exact ⟨⟨hplay, hrepeats, not_bunches_inMessage hin⟩, hstep⟩

/-- The session of the polite client, each of whose messages comes in two segments. -/
def haltingly : List Event :=
  [arrives [5], arrives [1, 2], flushes, arrives [1, 1, 117], arrives [1, 112], flushes,
    arrives [5, 1, 0, 1], arrives [10, 0, 0, 1, 0, 80], flushes]

/-- The session up to the relay, in three segments and in six. -/
theorem segmentation_independent_session : ∃ c c',
    Run (Guarded Step (Orderly sampleKernel)) accepted politely c ∧
    Run (Guarded Step (Orderly sampleKernel)) accepted haltingly c' ∧
    stateOf c = .relay ∧ sent .client c.trace = sent .client c'.trace ∧ stateOf c = stateOf c' := by
  have hrun : ((rehearse (fun c e => playable c e && inMessage c e) politely).map fun c =>
      (answeredBy accepted.users c.trace, received .client c.trace, stateOf c,
        decide (AtRest (helloBytes ++ authBytes ++ connectBytes) c))) =
      some (true, helloBytes ++ authBytes ++ connectBytes, .relay, true) := by decide +kernel
  have hrun' : ((rehearse (fun c e => playable c e && inMessage c e) haltingly).map fun c =>
      (answeredBy accepted.users c.trace, received .client c.trace,
        decide (AtRest (helloBytes ++ authBytes ++ connectBytes) c))) =
      some (true, helloBytes ++ authBytes ++ connectBytes, true) := by decide +kernel
  obtain ⟨c, hc, hvals⟩ := Option.map_eq_some_iff.mp hrun
  obtain ⟨c', hc', hvals'⟩ := Option.map_eq_some_iff.mp hrun'
  simp only [Prod.mk.injEq, decide_eq_true_eq] at hvals hvals'
  obtain ⟨hanswers, hbytes, hstate, hrest⟩ := hvals
  obtain ⟨hanswers', hbytes', hrest'⟩ := hvals'
  have horderly := orderly_run hc (by
    simp [politely, helloBytes, authBytes, connectBytes, arrives, flushes, Repeats, granting,
      sampleKernel])
  have horderly' := orderly_run hc' (by
    simp [haltingly, arrives, flushes, Repeats, granting, sampleKernel])
  have hsame := (segmentation_independent horderly horderly' rfl (answers_of_answeredBy hanswers)
    (answers_of_answeredBy hanswers')).2 (helloBytes ++ authBytes ++ connectBytes)
    (hbytes ▸ List.prefix_rfl) (hbytes' ▸ List.prefix_rfl) hrest hrest'
  exact ⟨c, c', horderly, horderly', hstate, hsame⟩

/-- The hello and the authentication, in one segment and in two. -/
def together : List Event := [arrives (helloBytes ++ authBytes), flushes]

def apart : List Event := [arrives helloBytes, flushes, arrives authBytes, flushes]

private theorem played_run {es : List Event} (h : rehearse playable es = some c)
    (hes : ∀ e ∈ es, Repeats sampleKernel e) :
    Run (Guarded Step fun c e => playable c e = true ∧ Repeats sampleKernel e) accepted es c := by
  have hrepeat : Run (Guarded _ fun _ e => Repeats sampleKernel e) accepted es c :=
    (rehearse_run h).guarded fun e hmem _ => hes e hmem
  exact hrepeat.mono fun {a b e} hab => ⟨⟨hab.2.1, hab.1⟩, hab.2.2⟩

/-- In one segment the authentication is never answered. -/
theorem bunched_diverges : ∃ c c',
    Run (Guarded Step fun c e => playable c e = true ∧ Repeats sampleKernel e) accepted together c ∧
    Run (Guarded Step fun c e => playable c e = true ∧ Repeats sampleKernel e) accepted apart c' ∧
    together.filter IsDial = apart.filter IsDial ∧
    Answers (userTableLookup accepted.users) c.trace ∧
    Answers (userTableLookup accepted.users) c'.trace ∧
    received .client c.trace = helloBytes ++ authBytes ∧
    received .client c'.trace = helloBytes ++ authBytes ∧
    AtRest (helloBytes ++ authBytes) c ∧ AtRest (helloBytes ++ authBytes) c' ∧
    sent .client c.trace ≠ sent .client c'.trace ∧ stateOf c ≠ stateOf c' ∧
    ¬ NothingUnparsed c := by
  have hrun : ((rehearse playable together).map fun c =>
        (answeredBy accepted.users c.trace && decide (AtRest (helloBytes ++ authBytes) c) &&
            decide (Ends authParserFeed (fun p => authIsDone p.state) c.auth authBytes),
          received .client c.trace, sent .client c.trace, stateOf c, bufferReadPtr c.readBuffer)) =
      some (true, helloBytes ++ authBytes, [5, 2], .authRead, authBytes) := by
    decide +kernel
  have hrun' : ((rehearse playable apart).map fun c =>
        (answeredBy accepted.users c.trace && decide (AtRest (helloBytes ++ authBytes) c),
          received .client c.trace, sent .client c.trace, stateOf c)) =
      some (true, helloBytes ++ authBytes, [5, 2, 1, 0], .requestRead) := by
    decide +kernel
  obtain ⟨c, hc, hvals⟩ := Option.map_eq_some_iff.mp hrun
  obtain ⟨c', hc', hvals'⟩ := Option.map_eq_some_iff.mp hrun'
  simp only [Prod.mk.injEq, Bool.and_eq_true, decide_eq_true_eq] at hvals hvals'
  obtain ⟨⟨⟨hanswers, hrest⟩, hends⟩, hbytes, hsent, hstate, hleft⟩ := hvals
  obtain ⟨⟨hanswers', hrest'⟩, hbytes', hsent', hstate'⟩ := hvals'
  refine ⟨c, c', played_run hc ?_, played_run hc' ?_, rfl, answers_of_answeredBy hanswers,
    answers_of_answeredBy hanswers', hbytes, hbytes', hrest, hrest', ?_, ?_, fun hnone => ?_⟩
  · simp [together, arrives, flushes, Repeats, granting, sampleKernel, helloBytes]
  · simp [apart, arrives, flushes, Repeats, granting, sampleKernel, helloBytes, authBytes]
  · rw [hsent, hsent']
    decide
  · rw [hstate, hstate']
    decide
  · exact hnone.1 hstate authBytes [] (by rw [hleft, List.append_nil]) hends

end Runs

end SocksProxy.Segmentation
