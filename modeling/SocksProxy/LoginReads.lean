import SocksProxy.Reading

/-!
HELLO_READ and AUTH_READ: what a read of the client socket leads to, what it
leaves unread, and which calls it makes.
-/
namespace SocksProxy.LoginReads

open ByteBuffer ByteScan Hello Auth Request UserTable Kernel Stm ConnState Connect Connection
open Stages Dialing Reading

variable {s : Stage} {c c' : Conn} {sys : Sys}

section HelloRead

variable {seen l : List UInt8} {hl : l.length ≤ bufferWritePtr c.readBuffer}

theorem foldl_method (methods : List UInt8) :
    methods.foldl onHelloMethod SOCKS_HELLO_NO_ACCEPTABLE_METHODS = method methods := by
  have hfold : ∀ (l : List UInt8) (d : UInt8), l.foldl onHelloMethod d =
      if SOCKS_HELLO_USERNAME_PASSWORD ∈ l then SOCKS_HELLO_USERNAME_PASSWORD else d := by
    intro l
    induction l with
    | nil => simp
    | cons m l ih =>
      intro d
      rw [List.foldl_cons, ih]
      by_cases hm : SOCKS_HELLO_USERNAME_PASSWORD = m
      · simp [onHelloMethod, ← hm]
      · simp [onHelloMethod, hm]
  exact hfold methods _

/-- hello_read on a parser that has seen `seen`. -/
private theorem helloRead_spec {k : Conn} (hk : k.hello = helloSeen seen)
    (hseen : HelloUnfinished seen) (hne : bufferReadPtr k.readBuffer ≠ [])
    (hroom : 2 ≤ bufferWritePtr k.writeBuffer) :
    (HelloUnfinished (seen ++ bufferReadPtr k.readBuffer) ∧ ∃ b, Rest k.readBuffer b [] ∧
      helloRead k = (.helloRead,
        { k with readBuffer := b, hello := helloSeen (seen ++ bufferReadPtr k.readBuffer) })) ∨
    (∃ x r, x ≠ 0x05 ∧ seen ++ bufferReadPtr k.readBuffer = x :: r ∧ ∃ b p,
      helloRead k = (.error, { k with readBuffer := b, hello := p })) ∨
    ∃ methods r b p, methods.length ≤ 255 ∧
      seen ++ bufferReadPtr k.readBuffer = helloMessage methods ++ r ∧ Rest k.readBuffer b r ∧
      p.data = method methods ∧ helloRead k = (.helloWrite,
        { k with
          readBuffer := b, hello := p
          writeBuffer := bufferPut k.writeBuffer [0x05, method methods] hroom }) := by
  rcases consume_cases helloErrored_done hseen hne with
    ⟨hpart, b, hcons, hrest⟩ | ⟨m, r, hsplit, hends, b, hcons, hrest⟩
  · left
    refine ⟨hpart, b, hrest, ?_⟩
    have hdone := hpart.unfinished (List.append_ne_nil_of_right_ne_nil seen hne)
    have hconsume : helloConsume (some onHelloMethod) k.readBuffer k.hello =
        (b, helloSeen (seen ++ bufferReadPtr k.readBuffer), false) := by
      rw [hk]
      exact hcons
    simp [helloRead, hconsume, helloSeen, hdone]
  · right
    have hconsume : helloConsume (some onHelloMethod) k.readBuffer k.hello =
        (b, helloSeen m, helloIsErrored (helloSeen m).state) := by
      rw [hk]
      exact hcons
    rcases hello_ends_cases onHelloMethod (p := helloStart) hends with
      ⟨x, hx, rfl, hstate⟩ | ⟨methods, hlen, rfl, hfinal⟩
    · left
      have hstate : (helloSeen [x]).state = .helloErrorUnsupportedVersion := hstate
      refine ⟨x, r, hx, hsplit, b, helloSeen [x], ?_⟩
      simp [helloRead, hconsume, hstate, helloIsErrored]
    · right
      have hfinal : helloSeen (helloMessage methods) =
          { data := method methods, state := .helloDone, remaining := 0 } := by
        rw [← foldl_method]
        exact hfinal
      refine ⟨methods, r, b, _, hlen, hsplit, hrest, congrArg HelloParser.data hfinal, ?_⟩
      simp [helloRead, hconsume, hfinal, helloIsErrored, helloIsDone, helloMarshall, hroom]

/-- The state machine runs hello_read on a parser that has seen `seen`, also
when this is its first event. -/
private theorem stm_hello (h : Fits (.hello seen) c) :
    stmHandlerRead (stm sys) (filled c sys l hl).current (filled c sys l hl) =
      some (jump (stm sys) .helloRead
        (helloRead { filled c sys l hl with hello := helloSeen seen }).1
        (helloRead { filled c sys l hl with hello := helloSeen seen }).2) := by
  rw [show (filled c sys l hl).current = c.current from rfl]
  rcases h.parsed.1 with ⟨hcur, rfl⟩ | ⟨hcur, hhello⟩
  · rw [hcur]
    rfl
  · have heta : { filled c sys l hl with hello := helloSeen seen } = filled c sys l hl := by
      rw [← hhello]
      rfl
    rw [hcur, heta]
    rfl

/-- A read in HELLO_READ. -/
theorem hello_read (hl : l.length ≤ bufferWritePtr c.readBuffer) (h : Fits (.hello seen) c)
    (hne : l ≠ []) (harr : Arrived c sys l) :
    ∃ c', (socks5HandleRead sys (filled c sys l hl)).map socksv5ApplyAction = some c' ∧
      ((HelloUnfinished (seen ++ l) ∧ c'.trace = c.trace ++ [readCall c sys] ∧
          Fits (.hello (seen ++ l)) c') ∨
        (∃ x r, x ≠ 0x05 ∧ seen ++ l = x :: r ∧ Broken .error c c' (c.trace ++ [readCall c sys])) ∨
        ∃ methods r, methods.length ≤ 255 ∧ seen ++ l = helloMessage methods ++ r ∧
          c'.trace = c.trace ++ [readCall c sys] ∧ Fits (.helloReply methods) c' ∧
          Rest (filled c sys l hl).readBuffer c'.readBuffer r) := by
  obtain ⟨-, hseen, hempty, hauth, hrequest, horigin, hdns⟩ := h.parsed
  have hptr : bufferReadPtr (filled c sys l hl).readBuffer = l := by
    rw [filled_readPtr, hempty, List.nil_append]
  have hwrite := fits_write_empty h (by simp [Stage.interest, OP_READ, OP_WRITE])
  have hread := filled_read hl h harr
  rw [hempty, List.nil_append] at hread
  have hsent : sent .client (filled c sys l hl).trace = [] := by
    have hout := h.sent_eq
    rw [hwrite, List.append_nil] at hout
    rw [filled_sent]
    exact hout
  have hroom : 2 ≤ bufferWritePtr c.writeBuffer := by
    rw [h.writeTidy.whole hwrite]
    decide
  have hitem : c.clientItem.isSome := by simp [h.clientItem_eq]
  have hspec := helloRead_spec (k := { filled c sys l hl with hello := helloSeen seen }) rfl hseen
    (by rw [hptr]; exact hne) hroom
  rw [hptr] at hspec
  unfold socks5HandleRead
  rw [stm_hello h]
  rcases hspec with ⟨hpart, b, hrest, heq⟩ | ⟨x, r, hx, hsplit, b, p, heq⟩ |
    ⟨methods, r, b, p, hlen, hsplit, hrest, hp, heq⟩
  · rw [heq, jump_self]
    refine ⟨_, congrArg some (apply_read (by simp [Waits]) hitem hwrite),
      Or.inl ⟨hpart, rfl, ?_⟩⟩
    exact
      { h with
        clientItem_eq := rfl
        readTidy := (filled_tidy sys h hne).rest hrest
        received_eq := by
          show received .client (filled c sys l hl).trace = seen ++ l ++ bufferReadPtr b
          rw [hread, hrest.contents_eq, List.append_nil]
          rfl
        sent_eq := by
          show sent .client (filled c sys l hl).trace ++ bufferReadPtr c.writeBuffer = []
          rw [hsent, hwrite]
          rfl
        parsed := ⟨Or.inr ⟨rfl, rfl⟩, hpart, hrest.contents_eq, hauth, hrequest, horigin, hdns⟩ }
  · rw [heq, jump_silent .helloRead .error (by decide)]
    refine ⟨_, congrArg some (apply_close (Or.inl rfl) (socks5ConnectionClose_eq h.closing_eq
        h.clientFd_isSome h.clientRegistered_eq (Or.inl horigin))), Or.inr (Or.inl ?_)⟩
    exact ⟨x, r, hx, hsplit, broken_closed rfl (fun d => by cases d <;> rfl) rfl⟩
  · have hpending : bufferReadPtr (bufferPut c.writeBuffer [0x05, method methods] hroom) ≠ [] := by
      simp
    rw [heq, jump_silent .helloRead .helloWrite (by decide)]
    refine ⟨_, congrArg some (apply_write (by simp [Waits]) hitem hpending),
      Or.inr (Or.inr ⟨methods, r, hlen, hsplit, rfl, ?_, hrest⟩)⟩
    exact
      { h with
        clientItem_eq := rfl
        readTidy := (filled_tidy sys h hne).rest hrest
        writeTidy := h.writeTidy.put [0x05, method methods] hroom (by simp)
        received_eq := by
          show received .client (filled c sys l hl).trace = helloMessage methods ++ bufferReadPtr b
          rw [hread, hrest.contents_eq, ← hsplit]
          rfl
        sent_eq := by
          show sent .client (filled c sys l hl).trace ++ bufferReadPtr (bufferPut c.writeBuffer _ _) =
            [0x05, method methods]
          rw [hsent, bufferReadPtr_put, hwrite]
          rfl
        pending_iff := ⟨fun _ => rfl, fun _ => hpending⟩
        parsed := ⟨rfl, hp, hauth, hrequest, horigin, hdns⟩ }

end HelloRead

section AuthRead

variable {seen l methods : List UInt8} {hl : l.length ≤ bufferWritePtr c.readBuffer}

/-- auth_read on a parser that has seen `seen`. -/
private theorem authRead_spec {k : Conn} (hk : k.auth = authSeen seen)
    (hseen : AuthUnfinished seen) (hne : bufferReadPtr k.readBuffer ≠ [])
    (hroom : 2 ≤ bufferWritePtr k.writeBuffer) :
    (AuthUnfinished (seen ++ bufferReadPtr k.readBuffer) ∧ ∃ b, Rest k.readBuffer b [] ∧
      authRead k = (.authRead,
        { k with readBuffer := b, auth := authSeen (seen ++ bufferReadPtr k.readBuffer) })) ∨
    (∃ x r, x ≠ 0x01 ∧ seen ++ bufferReadPtr k.readBuffer = x :: r ∧ ∃ b p,
      authRead k = (.error, { k with readBuffer := b, auth := p })) ∨
    ∃ u w r b p accepted, u.length ≤ 255 ∧ w.length ≤ 255 ∧
      seen ++ bufferReadPtr k.readBuffer = authMessage u w ++ r ∧ Rest k.readBuffer b r ∧
      Holds p.uname (u ++ [0]) ∧ userTableLookup k.users (cString u) (cString w) = accepted ∧
      authRead k = (.authWrite,
        { k with
          readBuffer := b, auth := p, authStatus := authStatusOf accepted
          writeBuffer := bufferPut k.writeBuffer [0x01, authStatusOf accepted] hroom
          trace := k.trace ++ [.lookup k.users (cString u) (cString w)] }) := by
  rcases consume_cases authErrored_done hseen hne with
    ⟨hpart, b, hcons, hrest⟩ | ⟨m, r, hsplit, hends, b, hcons, hrest⟩
  · left
    refine ⟨hpart, b, hrest, ?_⟩
    have hdone := hpart.unfinished (List.append_ne_nil_of_right_ne_nil seen hne)
    have hconsume : authConsume k.readBuffer k.auth =
        (b, authSeen (seen ++ bufferReadPtr k.readBuffer), false) := by
      rw [hk]
      exact hcons
    simp [authRead, hconsume, authSeen, hdone]
  · right
    have hconsume : authConsume k.readBuffer k.auth =
        (b, authSeen m, authIsErrored (authSeen m).state) := by
      rw [hk]
      exact hcons
    rcases auth_ends_cases (p := authParserZero) hends with
      ⟨x, hx, rfl, hstate⟩ | ⟨u, w, hu, hw, rfl⟩
    · left
      have hstate : (authSeen [x]).state = .authErrorUnsupportedVersion := hstate
      refine ⟨x, r, hx, hsplit, b, authSeen [x], ?_⟩
      simp [authRead, hconsume, hstate, authIsErrored]
    · right
      obtain ⟨-, hstate, huname, hpasswd⟩ := auth_ends_message authParserZero hu hw
      have hstate : (authSeen (authMessage u w)).state = .authDone := hstate
      have huser : cString (authSeen (authMessage u w)).uname.toList = cString u :=
        huname.cString_eq
      have hpass : cString (authSeen (authMessage u w)).passwd.toList = cString w :=
        hpasswd.cString_eq
      refine ⟨u, w, r, b, authSeen (authMessage u w), _, hu, hw, hsplit, hrest, huname, rfl, ?_⟩
      simp [authRead, hconsume, hstate, authIsErrored, authIsDone, credentialsMatch, huser, hpass,
        Conn.log, authMarshall, hroom, authStatusOf]

private theorem stm_auth (h : Fits (.auth methods seen) c) :
    stmHandlerRead (stm sys) (filled c sys l hl).current (filled c sys l hl) =
      some (jump (stm sys) .authRead (authRead (filled c sys l hl)).1
        (authRead (filled c sys l hl)).2) := by
  rw [show (filled c sys l hl).current = some .authRead from h.parsed.1]
  rfl

/-- A read in AUTH_READ. What hello_read had left in the buffer comes first. -/
theorem auth_read (hl : l.length ≤ bufferWritePtr c.readBuffer) (h : Fits (.auth methods seen) c)
    (hne : l ≠ []) (harr : Arrived c sys l) :
    ∃ c', (socks5HandleRead sys (filled c sys l hl)).map socksv5ApplyAction = some c' ∧
      ((AuthUnfinished (seen ++ (bufferReadPtr c.readBuffer ++ l)) ∧
          c'.trace = c.trace ++ [readCall c sys] ∧
          Fits (.auth methods (seen ++ (bufferReadPtr c.readBuffer ++ l))) c') ∨
        (∃ x r, x ≠ 0x01 ∧ seen ++ (bufferReadPtr c.readBuffer ++ l) = x :: r ∧
          Broken .error c c' (c.trace ++ [readCall c sys])) ∨
        ∃ u w r accepted, u.length ≤ 255 ∧ w.length ≤ 255 ∧
          seen ++ (bufferReadPtr c.readBuffer ++ l) = authMessage u w ++ r ∧
          userTableLookup c.users (cString u) (cString w) = accepted ∧
          c'.trace = c.trace ++ [readCall c sys, .lookup c.users (cString u) (cString w)] ∧
          Fits (.authReply ⟨methods, u, w⟩ accepted) c' ∧
          Rest (filled c sys l hl).readBuffer c'.readBuffer r) := by
  obtain ⟨-, hauth, hseen, -, hrequest, horigin, hdns⟩ := h.parsed
  have hptr := filled_readPtr sys hl
  have hwrite := fits_write_empty h (by simp [Stage.interest, OP_READ, OP_WRITE])
  have hread : received .client (filled c sys l hl).trace =
      helloMessage methods ++ (seen ++ (bufferReadPtr c.readBuffer ++ l)) := by
    rw [← List.append_assoc (helloMessage methods)]
    exact filled_read hl h harr
  have hsent : sent .client (filled c sys l hl).trace = [0x05, 0x02] := by
    have hout := h.sent_eq
    rw [hwrite, List.append_nil] at hout
    rw [filled_sent]
    exact hout
  have hroom : 2 ≤ bufferWritePtr c.writeBuffer := by
    rw [h.writeTidy.whole hwrite]
    decide
  have hitem : c.clientItem.isSome := by simp [h.clientItem_eq]
  have hspec := authRead_spec (k := filled c sys l hl) hauth hseen
    (by rw [hptr]; exact List.append_ne_nil_of_right_ne_nil _ hne) hroom
  rw [hptr] at hspec
  unfold socks5HandleRead
  rw [stm_auth h]
  rcases hspec with ⟨hpart, b, hrest, heq⟩ | ⟨x, r, hx, hsplit, b, p, heq⟩ |
    ⟨u, w, r, b, p, accepted, hu, hw, hsplit, hrest, hp, hacc, heq⟩
  · rw [heq, jump_self]
    refine ⟨_, congrArg some (apply_read (by simp [Waits]) hitem hwrite),
      Or.inl ⟨hpart, rfl, ?_⟩⟩
    exact
      { h with
        clientItem_eq := rfl
        readTidy := (filled_tidy sys h hne).rest hrest
        received_eq := by
          show received .client (filled c sys l hl).trace = helloMessage methods ++
            (seen ++ (bufferReadPtr c.readBuffer ++ l)) ++ bufferReadPtr b
          rw [hread, hrest.contents_eq, List.append_nil]
        sent_eq := by
          show sent .client (filled c sys l hl).trace ++ bufferReadPtr c.writeBuffer = [0x05, 0x02]
          rw [hsent, hwrite]
          rfl
        parsed := ⟨rfl, rfl, hpart, fun _ => hrest.contents_eq, hrequest, horigin, hdns⟩ }
  · rw [heq, jump_silent .authRead .error (by decide)]
    refine ⟨_, congrArg some (apply_close (Or.inl rfl) (socks5ConnectionClose_eq h.closing_eq
        h.clientFd_isSome h.clientRegistered_eq (Or.inl horigin))), Or.inr (Or.inl ?_)⟩
    exact ⟨x, r, hx, hsplit, broken_closed rfl (fun d => by cases d <;> rfl) rfl⟩
  · have hpending :
        bufferReadPtr (bufferPut c.writeBuffer [0x01, authStatusOf accepted] hroom) ≠ [] := by simp
    rw [heq, jump_silent .authRead .authWrite (by decide)]
    refine ⟨_, congrArg some (apply_write (by simp [Waits]) hitem hpending),
      Or.inr (Or.inr ⟨u, w, r, accepted, hu, hw, hsplit, hacc, List.append_assoc _ _ _, ?_, hrest⟩)⟩
    exact
      { h with
        clientItem_eq := rfl
        readTidy := (filled_tidy sys h hne).rest hrest
        writeTidy := h.writeTidy.put [0x01, authStatusOf accepted] hroom (by simp)
        received_eq := by
          show received .client ((filled c sys l hl).trace ++ [_]) =
            helloMessage methods ++ authMessage u w ++ bufferReadPtr b
          rw [received_append, hread, hrest.contents_eq, hsplit]
          simp [Call.received]
        sent_eq := by
          show sent .client ((filled c sys l hl).trace ++ [_]) ++
            bufferReadPtr (bufferPut c.writeBuffer _ _) = [0x05, 0x02] ++ [0x01, authStatusOf accepted]
          rw [sent_append, hsent, bufferReadPtr_put, hwrite]
          rfl
        pending_iff := ⟨fun _ => rfl, fun _ => hpending⟩
        parsed := ⟨rfl, rfl, hp, hrequest, horigin, hdns⟩ }

end AuthRead

end SocksProxy.LoginReads
