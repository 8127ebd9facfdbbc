import SocksProxy.Lifetime
import SocksProxy.ServerJobs
import SocksProxy.ServerOwners

/-!
The server's model is an abstraction of the connection's. Every run of a connection, with
all its bytes, is matched by a run of the server, and after it both see the same state,
sockets, interests and lookup.
-/
namespace SocksProxy.ServerRefines

open Kernel Request Runs ServerState ServerSteps ServerRefs ServerViews ServerPartings
  ServerFollows ServerTurns ServerJobs
open ConnState (Socks5State Socks5Action FdInterest OP_NOOP OP_READ OP_WRITE DnsJob Conn)
open ServerParts.Parts (allocated)
open ServerOwners (play reachable_play plain)
open ServerParts (owned_eq unregisterFd_eq handleClose_origin originConnectClose_eq sysClose_eq)

variable {F : Set ℕ} {fd a n : ℕ} {s t : Server} {o : Socks5} {v : View} {c c' : Conn}
  {sys : Sys} {i : FdInterest} {status : Status} {k : Answers} {fs : List Frame}

section System

open ServerRuns (Reachable)

variable {e : ServerSteps.Event} {users : UserTable.Table} {es : List Connection.Event}

/-- Between two events the server has nothing to do but what is queued for the
connection, and both models match. -/
structure Follows (F : Set ℕ) (fd a : ℕ) (s : Server) (c : Conn) : Prop where
  idle : s.stack = []
  jobs : ∃ l, s.jobs = if c.dnsJob = .queued then [⟨fd, a, l⟩] else []
  matches_ : Matches F fd a s c

/-- The sockets that the kernel gives to the connection are numbers in `F`; the server
does not shut down. -/
def Ordinary (F : Set ℕ) : Connection.Event → Prop
  | .clientRead sys => Reals F sys
  | .originWrite sys => Reals F sys
  | .blockDone sys => Reals F sys
  | .forceClose => False
  | _ => True

/-- The handler was called by the event `e`. -/
theorem ends_follows (h : Follows F fd a s c) (hc : Shows fd c v) (hstep : Step s e t)
    (hends : Ends F fd a s.stack s.jobs v.dnsJob t c') :
    ∃ u, Leads Step s u ∧ Follows F fd a u c' := by
  obtain ⟨u, hlead, hstack, hjobs, hiff, hmatches⟩ := hends
  obtain ⟨l, hl⟩ := h.jobs
  refine ⟨u, .head hstep hlead, hstack.trans h.idle, ⟨l, ?_⟩, hmatches⟩
  rw [hjobs, hl, hc.dnsJob]
  by_cases hqueued : v.dnsJob = .queued
  · rw [if_pos hqueued, if_pos (hiff.mpr hqueued)]
  · rw [if_neg hqueued, if_neg (mt hiff.mp hqueued)]

theorem callHandler_client (hs : Stands F fd a s o v) (op : FdInterest → Bool)
    (hop : op v.client = true) (k : ℕ → Socks5 → Except Halt Server) :
    callHandler s fd .socksv5 op k = k a o := by
  obtain ⟨r, hit⟩ := hs.around.client
  have hdispatched : dispatched s fd .socksv5 op = some a := by
    unfold dispatched
    rw [hit]
    exact if_pos ⟨rfl, hop⟩
  unfold callHandler
  rw [hdispatched]
  exact owned_eq hs.heap hs.same.released _

theorem callHandler_origin (hs : Stands F fd a s o v) (horigin : v.origin = some (n, i))
    (op : FdInterest → Bool) (hop : op i = true) (k : ℕ → Socks5 → Except Halt Server) :
    callHandler s n .origin op k = k a o := by
  obtain ⟨r, hit⟩ := hs.around.origin n i horigin
  have hdispatched : dispatched s n .origin op = some a := by
    unfold dispatched
    rw [hit]
    exact if_pos ⟨rfl, hop⟩
  unfold callHandler
  rw [hdispatched]
  exact owned_eq hs.heap hs.same.released _

theorem begins_step (hidle : s.stack = []) (h : begins s e = .ok t)
    (hrun : ∀ k, e ≠ .run k) (hworker : ∀ i w, e ≠ .worker i w) : Step s e t := by
  show step s e = _
  cases e with
  | run k => exact absurd rfl (hrun k)
  | worker i w => exact absurd rfl (hworker i w)
  | _ => exact (if_pos hidle).trans h

/-- An armed client is one of an open connection. -/
theorem armed_client (h : Follows F fd a s c) {op : FdInterest → Bool}
    (harmed : Connection.armed c.clientItem op) : ∃ o v, Shows fd c v ∧ Stands F fd a s o v ∧
      Orderly o v ∧ op v.client = true := by
  obtain ⟨j, hitem, hop⟩ := harmed
  rcases h.matches_ with ⟨o, v, hc, hs, hord⟩ | ⟨hclosed, -⟩
  · obtain rfl := Option.some.inj (hc.clientItem.symm.trans hitem)
    exact ⟨o, v, hc, hs, hord, hop⟩
  · rw [hclosed.clientItem_eq] at hitem
    cases hitem

theorem armed_origin (h : Follows F fd a s c) {op : FdInterest → Bool}
    (harmed : Connection.armed c.originItem op) : ∃ o v n i, Shows fd c v ∧ Stands F fd a s o v ∧
      Orderly o v ∧ v.origin = some (n, i) ∧ op i = true := by
  obtain ⟨j, hitem, hop⟩ := harmed
  rcases h.matches_ with ⟨o, v, hc, hs, hord⟩ | ⟨hclosed, -⟩
  · obtain ⟨⟨n, i⟩, horigin, rfl⟩ := Option.map_eq_some_iff.mp (hc.originItem.symm.trans hitem)
    exact ⟨o, v, n, i, hc, hs, hord, horigin, hop⟩
  · rw [hclosed.originItem_eq] at hitem
    cases hitem

theorem clientRead_followed (h : Follows F fd a s c) (hreals : Reals F sys)
    (hstep : Connection.Step c (.clientRead sys) c') :
    ∃ t, Leads Step s t ∧ Follows F fd a t c' := by
  obtain ⟨o, v, hc, hs, hord, hop⟩ := armed_client h hstep.1
  have hhandle : Connection.socksv5Read sys c = some c' := hstep.2
  have hrelay : o.relayStarted = c.relayStarted := by
    rw [hs.same.relayStarted, hc.relayStarted]
  cases hstarted : c.relayStarted with
  | true =>
    have heq : c' = Connection.socksv5ApplyAction (Connection.socks5RelayClientRead sys c) := by
      unfold Connection.socksv5Read at hhandle
      rw [if_pos hstarted] at hhandle
      exact (Option.some.inj hhandle).symm
    obtain ⟨relay, t, ht, hends, -⟩ := (relayRead_relayed hc sys .client).ends hs hord _
      (sentBytes c'.trace - sentBytes c.trace)
    refine ends_follows h hc (e := .clientRead fd .again relay silent) (begins_step h.idle ?_
      (by simp) (by simp)) (heq ▸ hends)
    exact (callHandler_client hs _ hop _).trans ((if_pos (hrelay.trans hstarted)).trans ht)
  | false =>
    obtain ⟨r, k, t, ht, hends⟩ := socksv5Read_ends hreals hc hs hord hstarted hhandle
    refine ends_follows h hc (e := .clientRead fd r (.closes ⟨0, .again⟩) k) (begins_step h.idle ?_
      (by simp) (by simp)) hends
    exact (callHandler_client hs _ hop _).trans
      ((if_neg (by simp [hrelay, hstarted])).trans ht)

theorem clientWrite_followed (h : Follows F fd a s c)
    (hstep : Connection.Step c (.clientWrite sys) c') :
    ∃ t, Leads Step s t ∧ Follows F fd a t c' := by
  obtain ⟨o, v, hc, hs, hord, hop⟩ := armed_client h hstep.1
  have hhandle : Connection.socksv5Write sys c = some c' := hstep.2
  have hrelay : o.relayStarted = c.relayStarted := by
    rw [hs.same.relayStarted, hc.relayStarted]
  cases hstarted : c.relayStarted with
  | true =>
    have heq : c' = Connection.socksv5ApplyAction (Connection.socks5RelayClientWrite sys c) := by
      unfold Connection.socksv5Write at hhandle
      rw [if_pos hstarted] at hhandle
      exact (Option.some.inj hhandle).symm
    obtain ⟨relay, t, ht, hends, -⟩ := (relayWrite_relayed hc sys .client).ends hs hord _
      (sentBytes c'.trace - sentBytes c.trace)
    refine ends_follows h hc (e := .clientWrite fd .again relay) (begins_step h.idle ?_
      (by simp) (by simp)) (heq ▸ hends)
    exact (callHandler_client hs _ hop _).trans ((if_pos (hrelay.trans hstarted)).trans ht)
  | false =>
    obtain ⟨w, t, ht, hends⟩ := socksv5Write_ends hc hs hord hstarted hhandle
    refine ends_follows h hc (e := .clientWrite fd w (.closes ⟨0, .again⟩)) (begins_step h.idle ?_
      (by simp) (by simp)) hends
    exact (callHandler_client hs _ hop _).trans
      ((if_neg (by simp [hrelay, hstarted])).trans ht)

theorem originRead_followed (h : Follows F fd a s c)
    (hstep : Connection.Step c (.originRead sys) c') :
    ∃ t, Leads Step s t ∧ Follows F fd a t c' := by
  obtain ⟨o, v, n, i, hc, hs, hord, horigin, hop⟩ := armed_origin h hstep.1
  obtain rfl : Connection.closeOn (Connection.relayRead sys .origin c) = c' :=
    Option.some.inj hstep.2
  obtain ⟨relay, t, ht, hends, heq⟩ := (relayRead_relayed hc sys .origin).ends hs hord _
    (sentBytes (Connection.originRead sys c).trace - sentBytes c.trace)
  rw [heq]
  refine ends_follows h hc (e := .originRead n relay) (begins_step h.idle ?_ (by simp) (by simp))
    hends
  exact (callHandler_origin hs horigin _ hop _).trans ht

theorem originWrite_followed (h : Follows F fd a s c) (hreals : Reals F sys)
    (hstep : Connection.Step c (.originWrite sys) c') :
    ∃ t, Leads Step s t ∧ Follows F fd a t c' := by
  obtain ⟨o, v, n, i, hc, hs, hord, horigin, hop⟩ := armed_origin h hstep.1
  have hhandle : Connection.originWrite sys c = c' := Option.some.inj hstep.2
  have hrelay : o.relayStarted = c.relayStarted := by
    rw [hs.same.relayStarted, hc.relayStarted]
  unfold Connection.originWrite at hhandle
  cases hstarted : c.relayStarted with
  | true =>
    rw [if_neg (by simp [hstarted])] at hhandle
    obtain ⟨relay, t, ht, hends, heq⟩ := (relayWrite_relayed hc sys .origin).ends hs hord _
      (sentBytes c'.trace - sentBytes c.trace)
    rw [← hhandle, heq]
    refine ends_follows h hc (e := .originWrite n .ok relay silent) (begins_step h.idle ?_
      (by simp) (by simp)) hends
    exact (callHandler_origin hs horigin _ hop _).trans
      ((if_pos (hrelay.trans hstarted)).trans ht)
  | false =>
    rw [if_pos hstarted] at hhandle
    obtain ⟨error, k, t, ht, hends⟩ := originConnect_ends hreals hc hs hord horigin
    rw [← hhandle]
    refine ends_follows h hc (e := .originWrite n error (.closes ⟨0, .again⟩) k) (begins_step h.idle ?_
      (by simp) (by simp)) hends
    exact (callHandler_origin hs horigin _ hop _).trans
      ((if_neg (by simp [hrelay, hstarted])).trans ht)

theorem blockDone_followed (h : Follows F fd a s c) (hreals : Reals F sys)
    (hstep : Connection.Step c (.blockDone sys) c') :
    ∃ t, Leads Step s t ∧ Follows F fd a t c' := by
  obtain ⟨hqueued, hitem⟩ := hstep.1
  obtain rfl : Connection.socksv5BlockDone sys { c with dnsJob := .idle } = c' :=
    Option.some.inj hstep.2
  obtain ⟨l, hjobs⟩ := h.jobs
  rw [if_pos hqueued] at hjobs
  rcases h.matches_ with ⟨o, v, hc, hs, hord⟩ | ⟨hclosed, -⟩
  · obtain ⟨t, hlead, hstack, hjobs', hjob, hmatches⟩ := blockDone_follows hreals hc hs hord h.idle
      hjobs rfl rfl (hc.dnsJob.symm.trans hqueued)
    refine ⟨t, hlead, hstack, ⟨l, ?_⟩, hmatches⟩
    rw [if_neg hjob, hjobs']
  · rw [hclosed.clientItem_eq] at hitem
    cases hitem

theorem dnsFinished_followed (h : Follows F fd a s c) {error : ℤ} {result : List AddrInfo}
    {queued : Bool} (hstep : Connection.Step c (.dnsFinished error result queued) c') :
    ∃ t, Leads Step s t ∧ Follows F fd a t c' := by
  have hjob : c.dnsJob = .resolving := hstep.1
  obtain rfl : Connection.dnsWorkerStore error result queued c = c' := Option.some.inj hstep.2
  obtain ⟨l, hjobs⟩ := h.jobs
  rw [if_neg (by simp [hjob])] at hjobs
  rcases h.matches_ with ⟨o, v, hc, hs, hord⟩ | ⟨hclosed, hleft⟩
  · obtain ⟨t, hlead, hstack, ⟨l', hjobs'⟩, hmatches⟩ := worker_open hc hs hord h.idle hjobs
      (hc.dnsJob.symm.trans hjob) error result queued
    refine ⟨t, hlead, hstack, ⟨l', ?_⟩, hmatches⟩
    have hdone : (Connection.dnsWorkerStore error result queued c).dnsJob =
        if queued then .queued else .idle := by
      unfold Connection.dnsWorkerStore
      rw [if_neg (by simp [hc.cancelled])]
    rw [hdone, hjobs']
    cases queued <;> rfl
  · rw [hjob] at hleft
    obtain ⟨t, hlead, hstack, hjobs', hidle, hmatches⟩ :=
      worker_closed hclosed hleft h.idle hjobs error result queued
    refine ⟨t, hlead, hstack, ⟨l, ?_⟩, hmatches⟩
    rw [hidle, hjobs']
    rfl

/-- What the server cannot see. -/
theorem unseen_followed (h : Follows F fd a s c) (hjob : c'.dnsJob = c.dnsJob)
    (hshows : ∀ v, Shows fd c v → Shows fd c' v) (hclosed : Dialing.Closed c → Dialing.Closed c') :
    ∃ t, Leads Step s t ∧ Follows F fd a t c' := by
  refine ⟨s, .refl Step s, h.idle, ?_, ?_⟩
  · rw [hjob]
    exact h.jobs
  · rcases h.matches_ with ⟨o, v, hc, hs, hord⟩ | ⟨hgone, hleft⟩
    · exact Or.inl ⟨o, v, hshows v hc, hs, hord⟩
    · rw [← hjob] at hleft
      exact Or.inr ⟨hclosed hgone, hleft⟩

/-- One event of the connection is a run of the server. -/
theorem step_followed {e : Connection.Event} (h : Follows F fd a s c)
    (hstep : Guarded Connection.Step (fun _ e => Ordinary F e) c e c') :
    ∃ t, Leads Step s t ∧ Follows F fd a t c' := by
  obtain ⟨hordinary, hstep⟩ := hstep
  cases e with
  | clientRead sys => exact clientRead_followed h hordinary hstep
  | clientWrite sys => exact clientWrite_followed h hstep
  | originRead sys => exact originRead_followed h hstep
  | originWrite sys => exact originWrite_followed h hordinary hstep
  | blockDone sys => exact blockDone_followed h hordinary hstep
  | dnsFinished error result queued => exact dnsFinished_followed h hstep
  | connectFinished outcome =>
    obtain rfl := Option.some.inj hstep.2
    exact unseen_followed h rfl (fun v hc => { hc with }) (fun hclosed => { hclosed with })
  | addUser name pass =>
    obtain rfl := Option.some.inj hstep.2
    exact unseen_followed h rfl (fun v hc => { hc with }) (fun hclosed => { hclosed with })
  | removeUser name =>
    obtain rfl := Option.some.inj hstep.2
    exact unseen_followed h rfl (fun v hc => { hc with }) (fun hclosed => { hclosed with })
  | forceClose => exact hordinary.elim

/-- The view of a connection that was just accepted. -/
def fresh : View where
  current := .helloRead
  client := OP_READ
  origin := none
  atyp := requestParserZero.atyp
  dnsError := 0
  found := false
  dnsNext := []
  relayStarted := false
  dnsPending := false
  dnsJob := .idle

/-- The numbers that are free while the connection on `fd` is served. -/
def unused (s : Server) (fd : ℕ) : Set ℕ := { n | n ≠ fd ∧ s.fds n = none }

/-- A closed descriptor has no entry while the main thread waits. -/
theorem unregistered (h : Reachable s) (hidle : s.stack = []) (hfd : s.fds fd = none) :
    s.items fd = none := by
  obtain ⟨d, b, hok⟩ := ServerRuns.reachable_ok h
  have hparts := (ServerRuns.idle_of_empty hok hidle).ground.parts
  cases hit : s.items fd with
  | none => rfl
  | some it =>
    by_cases hother : it.handler = .other
    · obtain ⟨-, sk, hsk, -⟩ := hparts.entries.other fd it hit List.not_mem_nil hother
      rw [hfd] at hsk
      cases hsk
    · obtain ⟨side, a, o, -, -, ho, -, hside, -⟩ :=
        hparts.entries.entry fd it hit List.not_mem_nil hother
      obtain ⟨sk, hsk, -⟩ := hparts.sockets.stored_open a o side fd ho hside
      rw [hfd] at hsk
      cases hsk

/-- Nobody has the mutex of memory that is not allocated. -/
theorem unlocked_free (h : Reachable s) (hfree : s.heap a = none) : s.locked a = false := by
  by_contra hlocked
  rw [Bool.not_eq_false] at hlocked
  obtain ⟨w, hw, hprop⟩ := List.any_eq_true.mp hlocked
  simp only [Bool.and_eq_true, decide_eq_true_eq] at hprop
  obtain ⟨rfl, hlocks⟩ := hprop
  obtain ⟨x, hx⟩ := List.getElem?_of_mem hw
  obtain ⟨d, b, hok⟩ := ServerRuns.reachable_ok h
  cases hstate : w.state with
  | notifying =>
    obtain ⟨o, ho, -⟩ := hok.ground.parts.refs.worker_live x w hx (by rw [hstate]; rfl)
    rw [hfree] at ho
    cases ho
  | unlocking queued =>
    -- the next step of the worker would use the memory
    refine ServerRuns.reachable_no_fault h (.worker x .unlock) ?_
    rw [step_worker hx]
    unfold dnsWorker
    simp [hstate, hfree]
  | resolving => rw [hstate] at hlocks; cases hlocks
  | releasing r => rw [hstate] at hlocks; cases hlocks
  | freeing r => rw [hstate] at hlocks; cases hlocks
  | exited => rw [hstate] at hlocks; cases hlocks

/-- The server with the connection that socksv5_passive_accept has registered. -/
def registered (s : Server) (fd a : ℕ) : Server :=
  let t := allocated s fd a
  let r : Registration := ⟨some s.accepted, t.books.registrations.issued.length⟩
  socksv5PoolAdd (({ t.setItem fd (some ⟨.socksv5, OP_READ, some a, r⟩) with
    books := { t.books with registrations := t.books.registrations.issue r } } : Server).set a
      { ServerState.socks5Init s.accepted fd with clientRegistered := true }) a

theorem accept_step (hidle : s.stack = []) (hlt : fd < ITEMS_MAX_SIZE) (hfd : s.fds fd = none)
    (hitem : s.items fd = none) (hfree : s.heap a = none) (htaken : s.taken a = false) :
    Step s (.accept fd true (some a)) (registered s fd a) := by
  have hregister : selectorRegister (allocated s fd a) fd .socksv5 OP_READ (some a)
      (some s.accepted) = some _ :=
    if_neg (by
      show ¬ (ITEMS_MAX_SIZE ≤ fd ∨ (s.items fd).isSome)
      rw [hitem]
      simp [hlt])
  show step s _ = _
  refine (if_pos hidle).trans ?_
  unfold begins socksv5PassiveAccept
  dsimp only
  rw [if_neg (by simp [hfd]), if_neg (by simp [sysOpen, hfree, htaken])]
  split
  next hnone => cases hregister.symm.trans hnone
  next t ht =>
    obtain rfl := Option.some.inj (hregister.symm.trans ht)
    rfl

/-- socksv5_passive_accept makes the connection that the other model begins with. -/
theorem accept_follows (h : Reachable s) (hidle : s.stack = []) (hjobs : s.jobs = [])
    (hlt : fd < ITEMS_MAX_SIZE) (hfd : s.fds fd = none) (hfree : s.heap a = none)
    (htaken : s.taken a = false) (users : UserTable.Table) : ∃ t,
      Step s (.accept fd true (some a)) t ∧ Follows (unused s fd) fd a t
        (ConnState.socks5Init fd users) := by
  have hitem := unregistered h hidle hfd
  have hunlocked := unlocked_free h hfree
  have hunregistered : ∀ n, s.fds n = none → s.items n = none := fun n => unregistered h hidle
  obtain ⟨d, b, hok⟩ := ServerRuns.reachable_ok h
  have hparts := (ServerRuns.idle_of_empty hok hidle).ground.parts
  have hnot : a ∉ s.pool := by
    intro hmem
    obtain ⟨o, ho, -⟩ := (hparts.pool.mem_iff a).mp hmem
    rw [hfree] at ho
    cases ho
  refine ⟨_, accept_step hidle hlt hfd hitem hfree htaken, hidle,
    ⟨{ serial := 0, n := 0 }, hjobs⟩,
    Or.inl ⟨{ ServerState.socks5Init s.accepted fd with clientRegistered := true }, fresh, ?_, ?_,
      ?_⟩⟩
  · exact
      { current := rfl
        clientFd := rfl
        clientItem := rfl
        clientRegistered := rfl
        originFd := rfl
        originItem := rfl
        originRegistered := rfl
        atyp := rfl
        dnsError := rfl
        found := by simp [ConnState.socks5Init, fresh]
        dnsNext := rfl
        closing := rfl
        cancelled := rfl
        relayStarted := rfl
        dnsPending := rfl
        dnsJob := rfl }
  · refine ⟨Function.update_self .., ?_, ?_, ?_⟩
    · show 1 = 1 + held s .idle
      rw [held, hjobs]
      rfl
    · constructor <;> rfl
    · exact
        { client := ⟨_, Function.update_self ..⟩
          origin := by simp [fresh]
          clientOpen := ⟨_, Function.update_self ..⟩
          originOpen := by simp [fresh]
          free := by
            rintro n ⟨hne, hn⟩ -
            exact ⟨(Function.update_of_ne hne ..).trans hn,
              (Function.update_of_ne hne ..).trans (hunregistered n hn)⟩
          pool := List.mem_cons_self
          nodup := List.nodup_cons.mpr ⟨hnot, hparts.pool.nodup⟩
          alive := by
            intro b hb
            by_cases hba : b = a
            · subst hba
              exact ⟨_, Function.update_self .., rfl⟩
            · obtain ⟨o, ho, hreg⟩ :=
                (hparts.pool.mem_iff b).mp ((List.mem_cons.mp hb).resolve_left hba)
              refine ⟨o, ?_, ?_⟩
              · show Function.update (Function.update s.heap a _) a _ b = some o
                rw [Function.update_of_ne hba, Function.update_of_ne hba, ho]
              · by_contra hgone
                rw [Bool.not_eq_false] at hgone
                have h := (hparts.gone b o ho hgone).unregistered .client
                rw [show ServerEntries.sideRegistered .client o = o.clientRegistered from rfl,
                  hreg] at h
                cases h
          unlocked := hunlocked
          worker := by simp [fresh] }
  · exact ⟨fun _ => ⟨rfl, rfl⟩, Or.inl rfl, by simp [fresh]⟩

/-- Whatever a connection does with its bytes is something the server does: beside its
run, from accept(), goes a run of the server, whatever other connections there are, and
both match after each event. -/
theorem connection_refined (hs : Reachable s) (hidle : s.stack = []) (hjobs : s.jobs = [])
    (hlt : fd < ITEMS_MAX_SIZE) (hfd : s.fds fd = none) (hfree : s.heap a = none)
    (htaken : s.taken a = false)
    (hrun : Run (Guarded Connection.Step fun _ e => Ordinary (unused s fd) e)
      (ConnState.socks5Init fd users) es c) : ∃ t u, Step s (.accept fd true (some a)) t ∧
      Along (Guarded Connection.Step fun _ e => Ordinary (unused s fd) e) Step
        (fun c t => Follows (unused s fd) fd a t c) (ConnState.socks5Init fd users) t es c u := by
  obtain ⟨t, haccept, hfollows⟩ := accept_follows hs hidle hjobs hlt hfd hfree htaken users
  obtain ⟨u, halong⟩ := hrun.along (R := fun c t => Follows (unused s fd) fd a t c) hfollows
    fun h hstep => step_followed h hstep
  exact ⟨t, u, haccept, halong⟩

/-- Another client is connected, and asks for a method. -/
def another : List ServerSteps.Event :=
  [.accept 7 true (some 3),
    .clientRead 7 (.goes .helloWrite true) (.closes ⟨0, .again⟩) plain]

theorem connection_refined_politely : ∃ s c t u, play serverInit another = .ok s ∧
    s.pool = [3] ∧ c.relayStarted = true ∧ Step s (.accept 5 true (some 0)) t ∧
    Leads Step t u ∧ Follows (unused s 5) 5 0 u c := by
  have hreplay : (Connection.replay Lifetime.accepted Lifetime.politely).map
      (fun c => c.relayStarted) = some true := by decide +kernel
  obtain ⟨c, hc, hrelay⟩ := Option.map_eq_some_iff.mp hreplay
  have hs : ∃ s, play serverInit another = .ok s ∧ s.stack = [] ∧ s.jobs = [] ∧
      s.pool = [3] ∧ s.fds 5 = none ∧ s.fds 6 = none ∧ s.heap 0 = none ∧ s.taken 0 = false :=
    ⟨_, rfl, rfl, rfl, rfl, rfl, rfl, rfl, rfl⟩
  obtain ⟨s, hplay, hidle, hjobs, hpool, hfive, hsix, hfree, htaken⟩ := hs
  have hreals : ∀ read, Reals (unused s 5) (Lifetime.granting read 6) := by
    intro read n m hm
    obtain rfl : 6 = m := Except.ok.inj hm
    exact ⟨⟨by decide, hsix⟩, by simp [Lifetime.granting, ITEMS_MAX_SIZE]⟩
  have hordinary : ∀ e ∈ Lifetime.politely, ∀ _ : Conn, Ordinary (unused s 5) e := by
    intro e he _
    simp only [Lifetime.politely, List.mem_cons, List.not_mem_nil, or_false] at he
    rcases he with rfl | rfl | rfl | rfl | rfl | rfl <;> first | exact hreals _ | trivial
  obtain ⟨t, u, haccept, halong⟩ := connection_refined (reachable_play another hplay)
    hidle hjobs (by decide) hfive hfree htaken ((Connection.replay_run hc).guarded hordinary)
  exact ⟨s, c, t, u, hplay, hpool, hrelay, haccept, halong.leads, halong.holds⟩

end System

end SocksProxy.ServerRefines
