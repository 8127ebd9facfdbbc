import SocksProxy.MonLoop

/-!
A monitor that has not authenticated learns only whether its logins are right:
two servers that give it the same answers to these cannot be told apart, and it
changes neither.
-/
namespace SocksProxy.Unauthenticated

open ByteBuffer Auth UserTable MonProtocol MonParsing AccessReport MonServer MonLoop

/-- What the rest of the server did meanwhile. -/
def elsewhere (es : List MonEvent) : List ServerCall :=
  es.filterMap fun
    | .elsewhere call => some call
    | _ => none

theorem elsewhere_snoc (es : List MonEvent) (e : MonEvent) :
    elsewhere (es ++ [e]) = elsewhere es ++ elsewhere [e] := List.filterMap_append

section OneRun

theorem answer_unauthenticated {s : Server} {cmd : UInt8} {args : List (List UInt8)}
    (h : (answer s false cmd args).authenticated = false) :
    answer s false cmd args = ⟨s, false, MON_STATUS_AUTH_FAIL, []⟩ := by
  unfold answer at h ⊢
  by_cases hcmd : cmd = MON_CMD_AUTH
  · simp only [hcmd, ne_eq, not_true_eq_false, and_false, if_false, if_true] at h ⊢
    split at h
    · split at h
      · exact absurd h (by simp)
      next hlookup => rw [if_neg hlookup]
    · rfl
  · rw [if_pos ⟨rfl, hcmd⟩]

theorem sendResponse_authenticated (conn : MonConn) (status : UInt8)
    (payload : Option (List UInt8)) (len : UInt16) :
    (sendResponse conn status payload len).authenticated = conn.authenticated := by
  unfold sendResponse
  dsimp only
  split
  · rfl
  · split <;> rfl

/-- No request logs out. -/
theorem monProcessRequest_authenticated {s : Server} {conn : MonConn}
    (h : conn.authenticated = true) : (monProcessRequest s conn).2.authenticated = true := by
  unfold monProcessRequest
  dsimp only
  split
  · rw [sendResponse_authenticated, h]
  repeat' split
  all_goals first
    | exact h
    | simp only [sendResponse_authenticated, h]

theorem monStep_authenticated {m m' : MonSession} {e : MonEvent} (h : monStep m e = some m')
    (hauth : m.conn.authenticated = true) : m'.conn.authenticated = true := by
  cases e with
  | recv bytes =>
    simp only [monStep] at h
    split at h
    · obtain rfl := Option.some.inj h
      unfold monRead
      dsimp only
      split
      · exact hauth
      split
      · exact monProcessRequest_authenticated hauth
      · exact hauth
    · exact absurd h (by simp)
  | recvFails =>
    simp only [monStep] at h
    split at h
    · obtain rfl := Option.some.inj h
      exact hauth
    · exact absurd h (by simp)
  | send n =>
    simp only [monStep] at h
    split at h
    · obtain rfl := Option.some.inj h
      unfold monWrite
      dsimp only
      split <;> exact hauth
    · exact absurd h (by simp)
  | sendFails =>
    simp only [monStep] at h
    split at h
    · obtain rfl := Option.some.inj h
      exact hauth
    · exact absurd h (by simp)
  | elsewhere call =>
    obtain rfl := Option.some.inj h
    exact hauth

/-- Every request so far was refused. -/
def AllRefused (m : MonSession) : Prop :=
  ∀ r ∈ m.served, r.answer = ⟨r.server, false, MON_STATUS_AUTH_FAIL, []⟩

/-- A step of such a connection: the server changes by what others do only. -/
theorem refused_turn {m m' : MonSession} {e : MonEvent} (h : MonTurn m e m') (hall : AllRefused m)
    (hbefore : m.conn.authenticated = false) (hauth : m'.conn.authenticated = false) :
    AllRefused m' ∧ m'.server = (elsewhere [e]).foldl ServerCall.run m.server := by
  cases h with
  | more => exact ⟨hall, rfl⟩
  | rejected => exact ⟨hall, rfl⟩
  | @answered seen bytes left m' r args _ _ _ _ _ _ hanswered =>
    have hlast : r.answer = ⟨r.server, false, MON_STATUS_AUTH_FAIL, []⟩ := by
      have hno : r.answer.authenticated = false := hanswered.authenticated'.symm.trans hauth
      have hfalse : r.authenticated = false := hanswered.authenticated_eq.trans hbefore
      unfold Served.answer at hno ⊢
      rw [hfalse] at hno ⊢
      exact answer_unauthenticated hno
    refine ⟨?_, ?_⟩
    · intro r' hr'
      rw [hanswered.served_eq, List.mem_append, List.mem_singleton] at hr'
      rcases hr' with hold | rfl
      · exact hall r' hold
      · exact hlast
    · rw [hanswered.server', hlast]
      exact hanswered.server_eq
  | wrote _ _ _ _ hwrote =>
    refine ⟨?_, hwrote.server_eq⟩
    intro r hr
    rw [hwrote.served_eq] at hr
    exact hall r hr
  | recvFailed => exact ⟨hall, rfl⟩
  | sendFailed => exact ⟨hall, rfl⟩
  | elsewhere => exact ⟨hall, rfl⟩

/-- A run without a successful login. -/
theorem run_refused {s : Server} (es : List MonEvent) {m : MonSession} (h : monRun s es = some m)
    (hauth : m.conn.authenticated = false) :
    InPhase m ∧ Output m ∧ AllRefused m ∧ m.server = (elsewhere es).foldl ServerCall.run s := by
  induction es using List.reverseRecOn generalizing m with
  | nil =>
    obtain rfl := Option.some.inj h
    refine ⟨inPhase_accept s, output_accept s, ?_, rfl⟩
    intro r hr
    exact absurd hr List.not_mem_nil
  | append_singleton es e ih =>
    obtain ⟨m₀, hrun, hstep⟩ := monRun_snoc h
    have hbefore : m₀.conn.authenticated = false := by
      by_contra hne
      have htrue := monStep_authenticated hstep (by simpa using hne)
      rw [hauth] at htrue
      exact absurd htrue (by simp)
    obtain ⟨hphase, hout, hall, hserver⟩ := ih hrun hbefore
    have hturn := monStep_cases hphase (fun htrue => absurd (hbefore.symm.trans htrue) (by simp))
      hstep
    obtain ⟨hall', hserver'⟩ := refused_turn hturn hall hbefore hauth
    refine ⟨hturn.inPhase hphase, hturn.output hout, hall', ?_⟩
    rw [elsewhere_snoc, List.foldl_append, ← hserver, hserver']

/-- What was sent and what is pending are refusals. -/
theorem output_refused {m : MonSession} (hout : Output m) (hall : AllRefused m) :
    m.sent ++ bufferReadPtr m.conn.writeBuffer =
      (List.replicate m.served.length (monFrame MON_STATUS_AUTH_FAIL [])).flatten := by
  have hframes : m.served.map Served.frame =
      List.replicate m.served.length (monFrame MON_STATUS_AUTH_FAIL []) := by
    apply List.eq_replicate_iff.mpr
    refine ⟨List.length_map _, ?_⟩
    intro frame hframe
    obtain ⟨r, hr, rfl⟩ := List.mem_map.mp hframe
    rw [Served.frame, hall r hr]
  rw [hout, List.flatMap_def, hframes]

end OneRun

section TwoRuns

/-- Both requests, if they are the same login, have the same answer. -/
def SameLookup (r₁ r₂ : Served) : Prop :=
  r₁.request.cmd = MON_CMD_AUTH → ¬ r₁.request.nargs < 2 →
    userTableLookup r₁.server.users (firstArg r₁.request) (secondArg r₁.request) =
      userTableLookup r₂.server.users (firstArg r₁.request) (secondArg r₁.request)

/-- Two sessions that the client cannot tell apart. -/
structure Twins (m₁ m₂ : MonSession) : Prop where
  conn_eq : m₁.conn = m₂.conn
  interest_eq : m₁.interest = m₂.interest
  closed_eq : m₁.closed = m₂.closed
  sent_eq : m₁.sent = m₂.sent
  served_eq : m₁.served.map Served.request = m₂.served.map Served.request

theorem monProcessRequest_twins {s₁ s₂ : Server} {conn : MonConn}
    (hauth : conn.authenticated = false)
    (hlookup : SameLookup ⟨conn.parser.request, s₁, conn.authenticated⟩
      ⟨conn.parser.request, s₂, conn.authenticated⟩) :
    (monProcessRequest s₁ conn).2 = (monProcessRequest s₂ conn).2 := by
  unfold monProcessRequest
  by_cases hcmd : conn.parser.request.cmd = MON_CMD_AUTH
  · simp only [hcmd, ne_eq, not_true_eq_false, and_false, if_false, if_true]
    by_cases hnargs : conn.parser.request.nargs < 2
    · rw [if_pos (Or.inl hnargs), if_pos (Or.inl hnargs)]
    · have hsame := hlookup hcmd hnargs
      dsimp only at hsame
      rw [hsame]
      split <;> rfl
  · simp only [hauth, hcmd, ne_eq, not_false_eq_true, and_self, if_true]

theorem monRead_twins {m₁ m₂ : MonSession} (h : Twins m₁ m₂) (hauth : m₁.conn.authenticated = false)
    {bytes : List UInt8} (h₁ : bytes.length ≤ bufferWritePtr m₁.conn.readBuffer)
    (h₂ : bytes.length ≤ bufferWritePtr m₂.conn.readBuffer)
    (hlookup : ∀ r₁ r₂, (monRead m₁ bytes h₁).served = m₁.served ++ [r₁] →
      (monRead m₂ bytes h₂).served = m₂.served ++ [r₂] → SameLookup r₁ r₂) :
    Twins (monRead m₁ bytes h₁) (monRead m₂ bytes h₂) := by
  obtain ⟨hconn, hint, hclosed, hsent, hserved⟩ := h
  obtain ⟨s₁, conn, i₁, c₁, received₁, current₁, sent₁, served₁⟩ := m₁
  obtain ⟨s₂, conn₂, i₂, c₂, received₂, current₂, sent₂, served₂⟩ := m₂
  simp only at hconn hint hclosed hsent hserved hauth
  subst hconn hint hclosed hsent
  unfold monRead at hlookup ⊢
  generalize monParserConsume (bufferPut conn.readBuffer bytes h₁) conn.parser = consumed
    at hlookup ⊢
  obtain ⟨rb, parser, error⟩ := consumed
  dsimp only at hlookup ⊢
  cases error with
  | true => exact ⟨rfl, rfl, rfl, rfl, hserved⟩
  | false =>
    simp only [Bool.false_eq_true, if_false] at hlookup ⊢
    by_cases hdone : monParserIsDone parser.state = true
    · simp only [hdone, if_true] at hlookup ⊢
      have hsame := hlookup _ _ rfl rfl
      refine ⟨monProcessRequest_twins hauth hsame, rfl, rfl, rfl, ?_⟩
      rw [List.map_append, List.map_append, hserved]
      rfl
    · simp only [hdone] at hlookup ⊢
      exact ⟨rfl, rfl, rfl, rfl, hserved⟩

theorem monWrite_twins {m₁ m₂ : MonSession} (h : Twins m₁ m₂) {n : ℕ}
    (h₁ : n ≤ (bufferReadPtr m₁.conn.writeBuffer).length)
    (h₂ : n ≤ (bufferReadPtr m₂.conn.writeBuffer).length) :
    Twins (monWrite m₁ n h₁) (monWrite m₂ n h₂) := by
  obtain ⟨hconn, hint, hclosed, hsent, hserved⟩ := h
  obtain ⟨s₁, conn, i₁, c₁, received₁, current₁, sent₁, served₁⟩ := m₁
  obtain ⟨s₂, conn₂, i₂, c₂, received₂, current₂, sent₂, served₂⟩ := m₂
  simp only at hconn hint hclosed hsent hserved
  subst hconn hint hclosed hsent
  unfold monWrite
  dsimp only
  split
  · exact ⟨rfl, rfl, rfl, rfl, hserved⟩
  · exact ⟨rfl, rfl, rfl, rfl, hserved⟩

theorem monStep_twins {m₁ m₂ m₁' m₂' : MonSession} {e : MonEvent} (h : Twins m₁ m₂)
    (hauth : m₁.conn.authenticated = false) (h₁ : monStep m₁ e = some m₁')
    (h₂ : monStep m₂ e = some m₂')
    (hlookup : ∀ r₁ r₂, m₁'.served = m₁.served ++ [r₁] → m₂'.served = m₂.served ++ [r₂] →
      SameLookup r₁ r₂) : Twins m₁' m₂' := by
  cases e with
  | recv bytes =>
    simp only [monStep] at h₁ h₂
    split at h₁ <;> split at h₂
    · obtain rfl := Option.some.inj h₁
      obtain rfl := Option.some.inj h₂
      exact monRead_twins h hauth _ _ hlookup
    all_goals simp at h₁ h₂
  | recvFails =>
    simp only [monStep] at h₁ h₂
    split at h₁ <;> split at h₂
    · obtain rfl := Option.some.inj h₁
      obtain rfl := Option.some.inj h₂
      exact ⟨h.conn_eq, h.interest_eq, rfl, h.sent_eq, h.served_eq⟩
    all_goals simp at h₁ h₂
  | send n =>
    simp only [monStep] at h₁ h₂
    split at h₁ <;> split at h₂
    · obtain rfl := Option.some.inj h₁
      obtain rfl := Option.some.inj h₂
      exact monWrite_twins h _ _
    all_goals simp at h₁ h₂
  | sendFails =>
    simp only [monStep] at h₁ h₂
    split at h₁ <;> split at h₂
    · obtain rfl := Option.some.inj h₁
      obtain rfl := Option.some.inj h₂
      exact ⟨h.conn_eq, h.interest_eq, rfl, h.sent_eq, h.served_eq⟩
    all_goals simp at h₁ h₂
  | elsewhere call =>
    obtain rfl := Option.some.inj h₁
    obtain rfl := Option.some.inj h₂
    exact ⟨h.conn_eq, h.interest_eq, h.closed_eq, h.sent_eq, h.served_eq⟩

/-- The logins of both runs are answered alike. -/
def SameLookups (m₁ m₂ : MonSession) : Prop :=
  ∀ (i : ℕ) (r₁ r₂ : Served), m₁.served[i]? = some r₁ → m₂.served[i]? = some r₂ → SameLookup r₁ r₂

theorem SameLookups.prefixes {m₁ m₂ m₁' m₂' : MonSession} (h : SameLookups m₁' m₂')
    (h₁ : m₁.served <+: m₁'.served) (h₂ : m₂.served <+: m₂'.served) : SameLookups m₁ m₂ := by
  intro i r₁ r₂ hr₁ hr₂
  obtain ⟨more₁, hmore₁⟩ := h₁
  obtain ⟨more₂, hmore₂⟩ := h₂
  apply h i r₁ r₂
  · rw [← hmore₁, List.getElem?_append_left (List.getElem?_eq_some_iff.mp hr₁).1]
    exact hr₁
  · rw [← hmore₂, List.getElem?_append_left (List.getElem?_eq_some_iff.mp hr₂).1]
    exact hr₂

theorem run_twins {s₁ s₂ : Server} (es : List MonEvent) {m₁ m₂ : MonSession}
    (h₁ : monRun s₁ es = some m₁) (h₂ : monRun s₂ es = some m₂) (hlookups : SameLookups m₁ m₂)
    (hauth : m₁.conn.authenticated = false) : Twins m₁ m₂ := by
  induction es using List.reverseRecOn generalizing m₁ m₂ with
  | nil =>
    obtain rfl := Option.some.inj h₁
    obtain rfl := Option.some.inj h₂
    exact ⟨rfl, rfl, rfl, rfl, rfl⟩
  | append_singleton es e ih =>
    obtain ⟨n₁, hrun₁, hstep₁⟩ := monRun_snoc h₁
    obtain ⟨n₂, hrun₂, hstep₂⟩ := monRun_snoc h₂
    have hbefore : n₁.conn.authenticated = false := by
      by_contra hne
      have htrue := monStep_authenticated hstep₁ (by simpa using hne)
      rw [hauth] at htrue
      exact absurd htrue (by simp)
    have htwins := ih hrun₁ hrun₂
      (hlookups.prefixes (monStep_grows hstep₁).2 (monStep_grows hstep₂).2) hbefore
    have hlen : n₁.served.length = n₂.served.length := by
      simpa using congrArg List.length htwins.served_eq
    apply monStep_twins htwins hbefore hstep₁ hstep₂
    intro r₁ r₂ hr₁ hr₂
    apply hlookups n₁.served.length r₁ r₂
    · rw [hr₁, List.getElem?_append_right (Nat.le_refl _), Nat.sub_self]
      rfl
    · rw [hr₂, hlen, List.getElem?_append_right (Nat.le_refl _), Nat.sub_self]
      rfl

end TwoRuns

/-- Unauthenticated monitors learn and change nothing: on two servers that answer
the logins of the client alike, and while none succeeds, the client gets the same
bytes, one refusal without payload for each request, and only the rest of the
server changes anything. -/
theorem unauthenticated_learn_nothing (s₁ s₂ : Server) (es : List MonEvent) (m₁ m₂ : MonSession)
    (h₁ : monRun s₁ es = some m₁) (h₂ : monRun s₂ es = some m₂) (hlookups : SameLookups m₁ m₂)
    (hauth : m₁.conn.authenticated = false) :
    m₁.sent = m₂.sent ∧ m₁.conn = m₂.conn ∧
      m₁.sent ++ bufferReadPtr m₁.conn.writeBuffer =
        (List.replicate m₁.served.length (monFrame MON_STATUS_AUTH_FAIL [])).flatten ∧
      m₁.server = (elsewhere es).foldl ServerCall.run s₁ ∧
      m₂.server = (elsewhere es).foldl ServerCall.run s₂ := by
  have htwins := run_twins es h₁ h₂ hlookups hauth
  have hauth₂ : m₂.conn.authenticated = false := by
    rw [← htwins.conn_eq]
    exact hauth
  obtain ⟨-, hout, hall, hserver₁⟩ := run_refused es h₁ hauth
  obtain ⟨-, -, -, hserver₂⟩ := run_refused es h₂ hauth₂
  exact ⟨htwins.sent_eq, htwins.conn_eq, output_refused hout hall, hserver₁, hserver₂⟩

/-- A listing, and a login as `x` with password `y`. -/
def knocks : List MonEvent :=
  [.recv [1, 3, 0], .send 4, .recv [1, 0, 2, 1, 1, 120, 121], .send 4]

/-- The first two arguments of a request, and how their lookup ends. -/
def lookupOf (r : Served) : List UInt8 × List UInt8 × Bool :=
  (firstArg r.request, secondArg r.request,
    userTableLookup r.server.users (firstArg r.request) (secondArg r.request))

/-- An empty table and one with another user refuse the login alike. -/
theorem unauthenticated_learn_nothing_two : ∃ m₁ m₂, monRun serverInit knocks = some m₁ ∧
    monRun (ServerCall.run serverInit (.addUser [97] [98])) knocks = some m₂ ∧
    m₁.served.map (fun r => (r.request.cmd, r.request.nargs)) =
      [(MON_CMD_LIST_USERS, 0), (MON_CMD_AUTH, 2)] ∧ m₁.sent = m₂.sent := by
  have hview₁ : (monRun serverInit knocks).map
      (fun m => (m.conn.authenticated, m.served.map lookupOf)) =
      some (false, [([], [], false), ([120], [121], false)]) := by decide +kernel
  have hview₂ : (monRun (ServerCall.run serverInit (.addUser [97] [98])) knocks).map
      (fun m => (m.conn.authenticated, m.served.map lookupOf)) =
      some (false, [([], [], false), ([120], [121], false)]) := by decide +kernel
  have hrequests : (monRun serverInit knocks).map
      (fun m => m.served.map fun r => (r.request.cmd, r.request.nargs)) =
      some [(MON_CMD_LIST_USERS, 0), (MON_CMD_AUTH, 2)] := by decide +kernel
  obtain ⟨m₁, h₁, hends₁⟩ := Option.map_eq_some_iff.mp hview₁
  obtain ⟨m₂, h₂, hends₂⟩ := Option.map_eq_some_iff.mp hview₂
  rw [h₁, Option.map_some, Option.some.injEq] at hrequests
  obtain ⟨hauth, hserved₁⟩ := Prod.mk.inj hends₁
  obtain ⟨-, hserved₂⟩ := Prod.mk.inj hends₂
  have hlookups : SameLookups m₁ m₂ := by
    intro i r₁ r₂ hr₁ hr₂ _ _
    have hboth := congrArg (·[i]?) (hserved₁.trans hserved₂.symm)
    simp only [List.getElem?_map, hr₁, hr₂, Option.map_some, Option.some.injEq, lookupOf,
      Prod.mk.injEq] at hboth
    obtain ⟨hname, hpass, hlookup⟩ := hboth
    rw [hlookup, hname, hpass]
  exact ⟨m₁, m₂, h₁, h₂, hrequests,
    (unauthenticated_learn_nothing _ _ _ m₁ m₂ h₁ h₂ hlookups hauth).1⟩

end SocksProxy.Unauthenticated
