import SocksProxy.MonLoop

/-!
Requests and responses of one monitoring connection. While no read goes past the
end of the request it completes, each request is executed once and answered once,
in order; bytes behind a request in the same read are lost with the buffer reset.
-/
namespace SocksProxy.OneResponse

open ByteBuffer ByteScan Runs MonProtocol MonParsing AccessReport MonServer MonLoop

/-- A well-formed request. -/
structure WireRequest where
  cmd : UInt8
  args : List (List UInt8)
  args_count : args.length ≤ MON_MAX_ARGS
  args_length : ∀ a ∈ args, a.length ≤ 255

def WireRequest.bytes (q : WireRequest) : List UInt8 := monMessage q.cmd q.args

/-- What the client writes. -/
def stream (reqs : List WireRequest) : List UInt8 := reqs.flatMap WireRequest.bytes

/-- The executed request. -/
def Served.wire (r : Served) : UInt8 × List (List UInt8) := (r.request.cmd, r.request.data)

def WireRequest.wire (q : WireRequest) : UInt8 × List (List UInt8) := (q.cmd, q.args)

/-- One response for each request: the executed requests are the first of those
written, each once and in order, they were received in full, their responses and
nothing else make the output, and none that was received in full is still
waiting when the connection waits for more. -/
structure OneEach (reqs : List WireRequest) (m : MonSession) : Prop where
  alive : m.closed = false
  executed : m.served.map Served.wire = (reqs.take m.served.length).map WireRequest.wire
  complete : (stream (reqs.take m.served.length)).length ≤ m.received.length
  output : m.sent ++ bufferReadPtr m.conn.writeBuffer = m.served.flatMap Served.frame
  caught_up : m.interest = .opRead → bufferReadPtr m.conn.writeBuffer = [] ∧
    ∀ k, k ≤ reqs.length → (stream (reqs.take k)).length ≤ m.received.length →
      k ≤ m.served.length

/-- recv and send succeed. -/
def NoIOError (e : MonEvent) : Prop := e ≠ .recvFails ∧ e ≠ .sendFails

/-- A read ends no later than the request that it completes. -/
def EndsWithRequest (reqs : List WireRequest) (m : MonSession) : MonEvent → Prop
  | .recv bytes => ∀ k, k ≤ reqs.length → (stream (reqs.take k)).length ≤ m.received.length ∨
      m.received.length + bytes.length ≤ (stream (reqs.take k)).length
  | _ => True

section Invariant

variable {reqs : List WireRequest} {m m' : MonSession} {e : MonEvent} {seen : List UInt8}

theorem stream_split (reqs : List WireRequest) (k : ℕ) :
    stream reqs = stream (reqs.take k) ++ stream (reqs.drop k) := by
  rw [stream, stream, stream, ← List.flatMap_append, List.take_append_drop]

theorem stream_take_mono (reqs : List WireRequest) {j k : ℕ} (h : j ≤ k) :
    (stream (reqs.take j)).length ≤ (stream (reqs.take k)).length := by
  have hsplit := congrArg List.length (stream_split (reqs.take k) j)
  rw [List.take_take, Nat.min_eq_left h, List.length_append] at hsplit
  omega

/-- The first `k` requests are done, and `seen` was received of the next one. -/
structure UpTo (reqs : List WireRequest) (m : MonSession) (seen : List UInt8) : Prop where
  count_le : m.served.length ≤ reqs.length
  executed : m.served.map Served.wire = (reqs.take m.served.length).map WireRequest.wire
  received_eq : m.received = stream (reqs.take m.served.length) ++ seen

/-- Nothing but a part of the next request waits in the connection. -/
structure InOrder (reqs : List WireRequest) (m : MonSession) : Prop where
  alive : m.closed = false
  sound : m.server.Sound
  output : Output m
  phase : (∃ seen, Reading m seen ∧ UpTo reqs m seen) ∨ (Writing m [] ∧ UpTo reqs m [])

theorem inOrder_accept {s : Server} (hs : s.Sound) : InOrder reqs (monPassiveAccept s) where
  alive := rfl
  sound := hs
  output := output_accept s
  phase := Or.inl ⟨[], reading_accept s, Nat.zero_le _, rfl, rfl⟩

theorem InOrder.inPhase (h : InOrder reqs m) : InPhase m := by
  intro _
  rcases h.phase with ⟨seen, hread, -⟩ | ⟨hwrite, -⟩
  · exact Or.inl ⟨seen, hread⟩
  · exact Or.inr ⟨[], hwrite⟩

/-- What was received of the next request is a part of it. -/
theorem UpTo.rest (h : UpTo reqs m seen) {more : List UInt8}
    (hpre : m.received ++ more <+: stream reqs) :
    seen ++ more <+: stream (reqs.drop m.served.length) := by
  rw [stream_split reqs m.served.length, h.received_eq, List.append_assoc] at hpre
  exact (List.prefix_append_right_inj _).mp hpre

/-- An unfinished request does not contain the next one whole. -/
theorem Reading.shorter (h : Reading m seen) {q : WireRequest}
    {rest : List UInt8} (hpre : seen <+: q.bytes ++ rest) : seen.length < q.bytes.length := by
  obtain ⟨-, -, -, -, p, -, hpart⟩ := h
  obtain ⟨hends, -⟩ := mon_ends_message p q.cmd q.args_count q.args_length
  by_contra hge
  obtain ⟨more, hmore⟩ := hpre
  have hsplit : seen = q.bytes ++ seen.drop q.bytes.length := by
    have htake := congrArg (List.take q.bytes.length) hmore
    rw [List.take_left, List.take_append_of_le_length (by omega)] at htake
    rw [← htake, List.length_take, Nat.min_eq_left (by omega), List.take_append_drop]
  rw [hsplit] at hpart
  exact hpart.not_ends hends

/-- A request that was received is the next one that was written. -/
theorem next_request {k : ℕ} {cmd : UInt8} {args : List (List UInt8)}
    (hcount : args.length ≤ MON_MAX_ARGS) (hargs : ∀ a ∈ args, a.length ≤ 255)
    {left : List UInt8} (hpre : monMessage cmd args ++ left <+: stream (reqs.drop k)) :
    ∃ q, reqs[k]? = some q ∧ q.cmd = cmd ∧ q.args = args := by
  obtain ⟨more, hmore⟩ := hpre
  cases hdrop : reqs.drop k with
  | nil =>
    rw [hdrop, List.append_assoc] at hmore
    have hlen := congrArg List.length hmore
    simp [stream, monMessage] at hlen
  | cons q qs =>
    rw [hdrop, stream, List.flatMap_cons, List.append_assoc] at hmore
    obtain ⟨hcmd, heq, -⟩ := monMessage_unique hcount hargs q.args_count q.args_length hmore
    refine ⟨q, ?_, hcmd.symm, heq.symm⟩
    rw [← List.head?_drop, hdrop]
    rfl

theorem take_succ_of_getElem? {k : ℕ} {q : WireRequest} (h : reqs[k]? = some q) :
    reqs.take (k + 1) = reqs.take k ++ [q] := by
  rw [List.take_add_one, h]
  rfl

theorem UpTo.answered (h : UpTo reqs m seen) (hread : Reading m seen) {bytes left : List UInt8}
    {r : Served} (hcount : r.request.data.length ≤ MON_MAX_ARGS)
    (hargs : ∀ a ∈ r.request.data, a.length ≤ 255)
    (hsplit : seen ++ bytes = monMessage r.request.cmd r.request.data ++ left)
    (ha : Answered m m' bytes r left) (hends : EndsWithRequest reqs m (.recv bytes))
    (hpre : m'.received <+: stream reqs) : left = [] ∧ UpTo reqs m' [] := by
  rw [ha.received_eq] at hpre
  have hrest := h.rest hpre
  rw [hsplit] at hrest
  obtain ⟨q, hq, hcmd, heq⟩ := next_request hcount hargs hrest
  have hbytes : q.bytes = monMessage r.request.cmd r.request.data := by
    rw [WireRequest.bytes, hcmd, heq]
  have hlt := (List.getElem?_eq_some_iff.mp hq).1
  have htake := take_succ_of_getElem? hq
  have hstream : stream (reqs.take (m.served.length + 1)) =
      stream (reqs.take m.served.length) ++ q.bytes := by
    rw [htake, stream, List.flatMap_append]
    simp [stream]
  have hlen := congrArg List.length hsplit
  rw [← hbytes, List.length_append, List.length_append] at hlen
  have hshort : seen.length < q.bytes.length := by
    apply Reading.shorter hread
    exact ⟨bytes, by rw [hsplit, hbytes]⟩
  have hleft : left = [] := by
    have hreceived := congrArg List.length h.received_eq
    rw [List.length_append] at hreceived
    have hstreamlen := congrArg List.length hstream
    rw [List.length_append] at hstreamlen
    apply List.length_eq_zero_iff.mp
    rcases hends (m.served.length + 1) hlt with hbefore | hafter
    · omega
    · omega
  refine ⟨hleft, ?_, ?_, ?_⟩
  · rw [ha.served_eq, List.length_append, List.length_singleton]
    exact hlt
  · rw [ha.served_eq, List.map_append, List.length_append, List.length_singleton, htake,
      List.map_append, h.executed, List.map_singleton, List.map_singleton, Served.wire,
      WireRequest.wire, hcmd, heq]
  · rw [ha.received_eq, ha.served_eq, List.length_append, List.length_singleton, hstream,
      h.received_eq, List.append_assoc, hsplit, hleft, hbytes, List.append_nil, List.append_nil]

theorem Reading.unique {seen' : List UInt8} (h : Reading m seen) (h' : Reading m seen') :
    seen = seen' := h.seen_eq.symm.trans h'.seen_eq

theorem InOrder.reading (h : InOrder reqs m) (hread : Reading m seen) : UpTo reqs m seen := by
  rcases h.phase with ⟨seen', hread', hup⟩ | ⟨hwrite, -⟩
  · rw [Reading.unique hread hread']
    exact hup
  · exact absurd (hread.interest_eq.symm.trans hwrite.interest_eq) (by simp)

theorem InOrder.writing {left : List UInt8} (h : InOrder reqs m) (hwrite : Writing m left) :
    left = [] ∧ UpTo reqs m [] := by
  rcases h.phase with ⟨seen, hread, -⟩ | ⟨hwrite', hup⟩
  · exact absurd (hread.interest_eq.symm.trans hwrite.interest_eq) (by simp)
  · exact ⟨hwrite.left_eq.symm.trans hwrite'.left_eq, hup⟩

/-- No step leaves the order. -/
theorem inOrder_turn (h : InOrder reqs m) (hturn : MonTurn m e m') (hio : NoIOError e)
    (hends : EndsWithRequest reqs m e) (hpre : m'.received <+: stream reqs) :
    InOrder reqs m' := by
  have hout := hturn.output h.output
  cases hturn with
  | more hopen hread hauth hread' =>
    have hup := h.reading hread
    refine ⟨h.alive, h.sound, hout, Or.inl ⟨_, hread', hup.count_le, hup.executed, ?_⟩⟩
    exact (congrArg (· ++ _) hup.received_eq).trans (List.append_assoc _ _ _)
  | rejected hopen hread _ _ hbad =>
    have hrest := (h.reading hread).rest hpre
    obtain ⟨hne, hnone⟩ := hbad
    obtain ⟨more, hmore⟩ := hrest
    cases hdrop : reqs.drop m.served.length with
    | nil =>
      rw [hdrop] at hmore
      exact absurd (List.append_eq_nil_iff.mp hmore).1 hne
    | cons q qs =>
      rw [hdrop, stream, List.flatMap_cons] at hmore
      exact absurd hmore (hnone q.cmd q.args more _ q.args_count q.args_length)
  | answered hopen hread hcount hargs hdata hsplit ha =>
    subst hdata
    obtain ⟨rfl, hup⟩ := (h.reading hread).answered hread hcount hargs hsplit ha hends hpre
    refine ⟨ha.closed_eq.trans h.alive, ?_, hout, Or.inr ⟨ha.writing, hup⟩⟩
    rw [ha.server']
    apply Server.Sound.answer
    rw [ha.server_eq]
    exact h.sound
  | wrote hopen hwriting hpos hn hw =>
    obtain ⟨rfl, hcount, hexecuted, hreceived⟩ := h.writing hwriting
    have hup : UpTo reqs m' [] := by
      refine ⟨?_, ?_, ?_⟩
      · rw [hw.served_eq]
        exact hcount
      · rw [hw.served_eq]
        exact hexecuted
      · rw [hw.served_eq, hw.received_eq]
        exact hreceived
    refine ⟨hw.closed_eq.trans h.alive, by rw [hw.server_eq]; exact h.sound, hout, ?_⟩
    rcases hw.phase with hwrite | hread
    · exact Or.inr ⟨hwrite, hup⟩
    · exact Or.inl ⟨[], hread, hup⟩
  | recvFailed => exact absurd rfl hio.1
  | sendFailed => exact absurd rfl hio.2
  | elsewhere call =>
    refine ⟨h.alive, h.sound.run call, hout, ?_⟩
    rcases h.phase with ⟨seen, hread, hup⟩ | ⟨hwrite, hup⟩
    · exact Or.inl ⟨seen, ⟨hread.1, hread.2, hread.3, hread.4, hread.5⟩, hup.1, hup.2, hup.3⟩
    · exact Or.inr ⟨⟨hwrite.1, hwrite.2, hwrite.3, hwrite.4, hwrite.5⟩, hup.1, hup.2, hup.3⟩

/-- What is in order has one response for each request. -/
theorem InOrder.oneEach (h : InOrder reqs m) (hpre : m.received <+: stream reqs) :
    OneEach reqs m := by
  obtain ⟨seen, hup⟩ : ∃ seen, UpTo reqs m seen := by
    rcases h.phase with ⟨seen, -, hup⟩ | ⟨-, hup⟩
    · exact ⟨seen, hup⟩
    · exact ⟨[], hup⟩
  refine ⟨h.alive, hup.executed, ?_, h.output, ?_⟩
  · rw [hup.received_eq, List.length_append]
    exact Nat.le_add_right _ _
  · intro hint
    obtain ⟨seen, hread, hup⟩ : ∃ seen, Reading m seen ∧ UpTo reqs m seen := by
      rcases h.phase with hread | ⟨hwrite, -⟩
      · exact hread
      · exact absurd (hint.symm.trans hwrite.interest_eq) (by simp)
    refine ⟨hread.ready.1, ?_⟩
    intro k hk hlen
    by_contra hlt
    have hmono := stream_take_mono reqs (show m.served.length + 1 ≤ k by omega)
    have hget : m.served.length < reqs.length := by omega
    have hq : reqs[m.served.length]? = some reqs[m.served.length] := List.getElem?_eq_getElem hget
    have hstream := congrArg stream (take_succ_of_getElem? hq)
    rw [stream, stream, List.flatMap_append, List.flatMap_singleton] at hstream
    have hrest := UpTo.rest hup (by rw [List.append_nil]; exact hpre)
    rw [List.append_nil, List.drop_eq_getElem_cons hget, stream, List.flatMap_cons] at hrest
    have hshort := Reading.shorter hread hrest
    have hreceived := congrArg List.length hup.received_eq
    have htotal := congrArg List.length hstream
    rw [List.length_append] at hreceived htotal
    unfold stream at hmono hlen hreceived
    omega

end Invariant

/-- The steps of the connection. -/
def MonStep (m : MonSession) (e : MonEvent) (m' : MonSession) : Prop := monStep m e = some m'

/-- One response for each request, in every run whose reads end no later than the
requests that they complete. -/
theorem one_response_each {s : Server} (hs : s.Reachable) (reqs : List WireRequest)
    {es : List MonEvent} {m : MonSession}
    (h : Run (Guarded MonStep (EndsWithRequest reqs)) (monPassiveAccept s) es m)
    (hio : ∀ e ∈ es, NoIOError e) (hpre : m.received <+: stream reqs) : OneEach reqs m := by
  have horder : InOrder reqs m := by
    induction h with
    | nil => exact inOrder_accept hs.sound
    | @snoc es t u e hrun hstep ih =>
      obtain ⟨hends, hstep⟩ := hstep
      have hfirst : ∀ e ∈ es, NoIOError e := fun e he => hio e (List.mem_append_left _ he)
      have hlast : NoIOError e := hio e (List.mem_append_right _ List.mem_cons_self)
      have hbefore : t.received <+: stream reqs := (monStep_grows hstep).1.trans hpre
      have hin := ih hfirst hbefore
      have hturn := monStep_cases hin.inPhase (fun _ => hin.sound) hstep
      exact inOrder_turn hin hturn hlast hends hpre
  exact horder.oneEach hpre

/-- GET_METRICS. -/
private def metricsRequest : WireRequest := ⟨MON_CMD_GET_METRICS, [], by decide, by simp⟩

theorem serverInit_reachable : serverInit.Reachable := ⟨[], rfl⟩

/-- A condition on reads that a program can check. -/
private def endsHere (reqs : List WireRequest) (m : MonSession) : MonEvent → Bool
  | .recv bytes => (List.range (reqs.length + 1)).all fun k =>
      (stream (reqs.take k)).length ≤ m.received.length ∨
        m.received.length + bytes.length ≤ (stream (reqs.take k)).length
  | _ => true

private theorem endsHere_iff {reqs : List WireRequest} {m : MonSession} {e : MonEvent}
    (h : endsHere reqs m e = true) : EndsWithRequest reqs m e := by
  cases e with
  | recv bytes =>
    intro k hk
    have hall := List.all_eq_true.mp h k (List.mem_range.mpr (by omega))
    simpa using hall
  | recvFails => trivial
  | send => trivial
  | sendFails => trivial
  | elsewhere => trivial

/-- Two requests in two reads. -/
theorem one_response_each_two :
    ∃ m, Run (Guarded MonStep (EndsWithRequest [metricsRequest, metricsRequest]))
        (monPassiveAccept serverInit) [.recv [1, 4, 0], .send 4, .recv [1, 4, 0], .send 4] m ∧
      OneEach [metricsRequest, metricsRequest] m := by
  obtain ⟨m, hrun⟩ := Option.isSome_iff_exists.mp (show
    (([.recv [1, 4, 0], .send 4, .recv [1, 4, 0], .send 4] : List MonEvent).foldlM (fun m e =>
      if endsHere [metricsRequest, metricsRequest] m e then monStep m e else none)
      (monPassiveAccept serverInit)).isSome = true by decide +kernel)
  have hview : (([.recv [1, 4, 0], .send 4, .recv [1, 4, 0], .send 4] : List MonEvent).foldlM
      (fun m e => if endsHere [metricsRequest, metricsRequest] m e then monStep m e else none)
      (monPassiveAccept serverInit)).map (·.received) =
        some (stream [metricsRequest, metricsRequest]) := by decide +kernel
  rw [hrun, Option.map_some, Option.some.injEq] at hview
  have hguarded : Run (Guarded MonStep (EndsWithRequest [metricsRequest, metricsRequest]))
      (monPassiveAccept serverInit) [.recv [1, 4, 0], .send 4, .recv [1, 4, 0], .send 4] m :=
    (Run.of_foldlM_guarded (fun h => h) hrun).mono
      fun hstep => ⟨endsHere_iff hstep.1, hstep.2⟩
  refine ⟨m, hguarded, one_response_each serverInit_reachable _ hguarded ?_
    ⟨[], (List.append_nil _).trans hview⟩⟩
  intro e he
  simp only [List.mem_cons, List.not_mem_nil, or_false] at he
  rcases he with rfl | rfl | rfl | rfl
  all_goals exact ⟨by simp, by simp⟩

/-- Two requests in one read: the second is read, and lost when the response to
the first has been sent. -/
theorem bunched_request_lost :
    ¬ ∀ s : Server, s.Reachable → ∀ (reqs : List WireRequest) (es : List MonEvent) (m : MonSession),
      Run MonStep (monPassiveAccept s) es m → (∀ e ∈ es, NoIOError e) →
      m.received <+: stream reqs → OneEach reqs m := by
  intro hclaim
  obtain ⟨m, hrun⟩ := Option.isSome_iff_exists.mp (show
    (monRun serverInit [.recv [1, 4, 0, 1, 4, 0], .send 4]).isSome = true by decide +kernel)
  have hview : (monRun serverInit [.recv [1, 4, 0, 1, 4, 0], .send 4]).map
      (fun m => (m.received, m.interest, m.served.length)) =
        some (stream [metricsRequest, metricsRequest], .opRead, 1) := by decide +kernel
  rw [hrun, Option.map_some, Option.some.injEq, Prod.mk.injEq, Prod.mk.injEq] at hview
  obtain ⟨hreceived, hint, hserved⟩ := hview
  have hone := hclaim serverInit serverInit_reachable [metricsRequest, metricsRequest] _ m
    (Run.of_foldlM (fun h => h) hrun) (by
      intro e he
      simp only [List.mem_cons, List.not_mem_nil, or_false] at he
      rcases he with rfl | rfl
      all_goals exact ⟨by simp, by simp⟩) ⟨[], (List.append_nil _).trans hreceived⟩
  have hall := (hone.caught_up hint).2 2 (by decide) (by rw [hreceived]; decide)
  rw [hserved] at hall
  exact absurd hall (by decide)

end SocksProxy.OneResponse
