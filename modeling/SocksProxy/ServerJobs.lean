import SocksProxy.ServerTurns

/-!
origin_connect_write_handler, the notification of a lookup, and the worker that sends it,
in both models.
-/
namespace SocksProxy.ServerJobs

open Kernel Request Runs ServerState ServerSteps ServerRefs ServerViews ServerPartings
  ServerFollows ServerTurns
open ConnState (Socks5State Socks5Action FdInterest OP_NOOP OP_READ OP_WRITE DnsJob Conn)
open ServerParts.Parts (allocated)
open ServerParts (owned_eq unregisterFd_eq handleClose_origin originConnectClose_eq sysClose_eq)

variable {F : Set ℕ} {fd a n : ℕ} {s t : Server} {o : Socks5} {v : View} {c c' : Conn}
  {sys : Sys} {i : FdInterest} {status : Status} {k : Answers} {fs : List Frame}

section Origin

/-! origin_connect_write_handler. -/

/-- The end of origin_connect_write_handler. -/
theorem originReply_ends (hc : Shows fd c v) (hs : Stands F fd a s o v)
    (hsingle : v.origin = none ∨ v.dnsJob = .idle) (hatyp : o.atyp = v.atyp)
    (status : Status) (hfits : k.fits = fits sys (status, c)) : ∃ t,
      originConnectReply a k s = .ok t ∧
      Ends F fd a s.stack s.jobs v.dnsJob t (Connect.originConnectReply sys
        { c with requestReply := Connect.connectReplyFromErrno status }) := by
  have hlate : ∀ st i, early st = false →
      Orderly { o with current := st } { v with current := st, client := i } := by
    intro st i hst
    refine ⟨fun h => ?_, hsingle, fun _ => hatyp⟩
    rw [show early st = true from h] at hst
    cases hst
  have hc' : Shows fd { c with requestReply := Connect.connectReplyFromErrno status } v :=
    { hc with }
  unfold originConnectReply Connect.originConnectReply
  rw [owned_eq hs.heap hs.same.released, hfits]
  unfold fits
  rcases marshall_cases sys { c with requestReply := Connect.connectReplyFromErrno status } with
    herror | ⟨b, -, hreply⟩
  · rw [herror]
    refine ⟨_, if_neg (by simp), ?_⟩
    exact ends_open ((hc'.goes _).interest_client _) (hs.goes _ _) (hlate _ _ rfl)
      (sameWork_interest _ _ _).1 (sameWork_interest _ _ _).2 rfl
  · rw [hreply]
    refine ⟨_, if_pos (by simp), ?_⟩
    have hc'' : Shows fd { c with
        requestReply := Connect.connectReplyFromErrno status, writeBuffer := b } v := { hc with }
    exact ends_open ((hc''.goes _).interest_client _) (hs.goes _ _) (hlate _ _ rfl)
      (sameWork_interest _ _ _).1 (sameWork_interest _ _ _).2 rfl

/-- The origin socket `n` is neither registered nor open any more. -/
theorem stands_dropped (h : Stands F fd a s o v) (horigin : v.origin = some (n, i))
    (hb : Becomes s t fs
      (Function.update s.heap a (some { o with originRegistered := false, originFd := none }))
      (Function.update s.items n none) (Function.update s.fds n none) s.pool) :
    Stands F fd a t { o with originRegistered := false, originFd := none }
      { v with origin := none } := by
  have hold := h.around
  have hne := hold.origin_ne horigin
  refine ⟨by rw [hb.heap, Function.update_self], ?_, ?_, ?_⟩
  · rw [hb.held]
    exact h.references
  · exact { h.same with originFd := rfl, originRegistered := rfl }
  · exact
      { client := by
          rw [hb.items, Function.update_of_ne hne.symm]
          exact hold.client
        origin := by simp
        clientOpen := by
          rw [hb.fds, Function.update_of_ne hne.symm]
          exact hold.clientOpen
        originOpen := by simp
        free := by
          intro m hm _
          rw [hb.fds, hb.items]
          by_cases hmn : m = n
          · rw [hmn, Function.update_self, Function.update_self]
            exact ⟨rfl, rfl⟩
          · rw [Function.update_of_ne hmn, Function.update_of_ne hmn]
            refine hold.free m hm fun j hj => ?_
            rw [horigin] at hj
            exact hmn (congrArg Prod.fst (Option.some.inj hj)).symm
        pool := hb.pool ▸ hold.pool
        nodup := hb.pool ▸ hold.nodup
        alive := by
          intro b hmem
          rw [hb.pool] at hmem
          rw [hb.heap]
          by_cases hba : b = a
          · rw [hba, Function.update_self]
            exact ⟨_, rfl, h.same.released⟩
          · rw [Function.update_of_ne hba]
            exact hold.alive b hmem
        unlocked := hb.locked.trans hold.unlocked
        worker := fun hjob => hb.resolving (hold.worker hjob) }

/-- origin_connect_write_handler has found an error: the entry is unregistered first. -/
theorem unregisters_failed (h : Stands F fd a s o v) (horigin : v.origin = some (n, i))
    (hstatus : status ≠ .ok) (k : Answers) : ∃ t,
      originConnectWriteHandler s n a o status k = .ok t ∧
        Becomes s t (.clear n (some a) :: .originDrop a :: s.stack)
          (Function.update s.heap a (some { o with originRegistered := false })) s.items s.fds
          s.pool := by
  have hfd : o.originFd = some n := by rw [h.same.originFd, horigin]; rfl
  have hreg : o.originRegistered = true := by rw [h.same.originRegistered, horigin]; rfl
  obtain ⟨r, hit⟩ := h.around.origin n i horigin
  let o' : Socks5 := { o with originRegistered := false }
  let u : Server := (s.set a o').push [.originDrop a]
  let w : Server := { u with
    stack := .clear n (some a) :: u.stack
    books := { u.books with registrations := u.books.registrations.settle r } }
  have hw : w.heap a = some o' := Function.update_self ..
  have hstep : originConnectWriteHandler s n a o status k = .ok (w.set a o') := by
    unfold originConnectWriteHandler
    rw [if_neg hstatus, if_pos (by simp [hreg, hfd])]
    show selectorUnregisterFd u n = _
    rw [unregisterFd_eq (show u.items n = _ from hit), handleClose_origin rfl rfl]
    exact originConnectClose_eq (o := o') hw h.same.released hfd
  refine ⟨_, hstep, rfl, ?_, rfl, rfl, rfl, rfl, rfl⟩
  show Function.update (Function.update s.heap a (some o')) a _ = _
  rw [Function.update_idem]

/-- The next address is tried, or the failure is answered. -/
theorem originDrop_ends (hreals : Reals F sys) (hc : Shows fd c v) (hs : Stands F fd a s o v)
    (hnone : v.origin = none) (hidle : v.dnsJob = .idle) (hatyp : o.atyp = v.atyp)
    (hlate : early v.current = false) (status : Status) : ∃ k t,
      (s.owned a fun o =>
        if o.atyp = SOCKS5_ATYP_DOMAINNAME ∧ o.dnsNext ≠ [] then
          (startResolvedConnect s a o k).bind fun r =>
            if r.1 = .inProgress then .ok r.2 else originConnectReply a k r.2
        else originConnectReply a k s) = .ok t ∧
      Ends F fd a s.stack s.jobs v.dnsJob t
        (if c.request.atyp = SOCKS5_ATYP_DOMAINNAME ∧ c.dnsNext ≠ [] then
          Connect.originConnectNext sys
            { c with requestReply := Connect.connectReplyFromErrno status }
        else Connect.originConnectReply sys
          { c with requestReply := Connect.connectReplyFromErrno status }) := by
  have hleft : (o.atyp = SOCKS5_ATYP_DOMAINNAME ∧ o.dnsNext ≠ []) ↔
      (c.request.atyp = SOCKS5_ATYP_DOMAINNAME ∧ c.dnsNext ≠ []) := by
    rw [hatyp, hc.atyp, hs.same.dnsNext, hc.dnsNext]
  have hc' : Shows fd { c with requestReply := Connect.connectReplyFromErrno status } v :=
    { hc with }
  by_cases hmore : o.atyp = SOCKS5_ATYP_DOMAINNAME ∧ o.dnsNext ≠ []
  · rw [if_pos (hleft.mp hmore)]
    unfold Connect.originConnectNext
    obtain ⟨t, o', v', hx, hwork, hshows, hstands, hatyp', hview⟩ :=
      startResolvedConnect_meets hreals (fits sys (Connect.startResolvedConnect sys
        { c with requestReply := Connect.connectReplyFromErrno status })) hc' hs hnone
    refine ⟨answers sys (fits sys (Connect.startResolvedConnect sys
      { c with requestReply := Connect.connectReplyFromErrno status })), ?_⟩
    rw [owned_eq hs.heap hs.same.released, if_pos hmore, hx]
    generalize Connect.startResolvedConnect sys _ = r at hshows ⊢
    obtain ⟨status', d⟩ := r
    have hjob : v'.dnsJob = v.dnsJob := by rw [hview]
    have hat : o'.atyp = v'.atyp := by rw [hview, hatyp', hatyp]
    have hlate' : early v'.current = false := by rw [hview, hlate]
    by_cases hprogress : status' = .inProgress
    · rw [hprogress]
      have hord : Orderly o' v' := by
        refine ⟨fun h => ?_, Or.inr (hjob.trans hidle), fun _ => hat⟩
        rw [hlate'] at h
        cases h
      exact ⟨t, rfl, ends_open hshows hstands hord hwork.1 hwork.2 hjob⟩
    · obtain ⟨u, hu, hends⟩ := originReply_ends
        (k := answers sys (fits sys (status', d))) hshows hstands (Or.inr (hjob.trans hidle)) hat
        status' rfl
      refine ⟨u, (if_neg hprogress).trans hu, ?_⟩
      rw [hwork.1, hwork.2, hjob] at hends
      cases status' with
      | inProgress => exact absurd rfl hprogress
      | ok => exact hends
      | failed e => exact hends
  · rw [if_neg (mt hleft.mpr hmore)]
    obtain ⟨t, ht, hends⟩ := originReply_ends (k := answers sys (fits sys (status, c))) hc hs
      (Or.inl hnone) hatyp status rfl
    refine ⟨answers sys (fits sys (status, c)), t, ?_, hends⟩
    rw [owned_eq hs.heap hs.same.released, if_neg hmore, ht]

theorem drop_eq (hc : Shows fd c v) (horigin : v.origin = some (n, i)) (reply : UInt8) :
    Connect.originConnectDrop { c with requestReply := reply } =
      { c with
        requestReply := reply, originRegistered := false, originItem := none
        originFd := none }.log (.close .origin) := by
  have hfd : c.originFd = some n := by rw [hc.originFd, horigin]; rfl
  have hreg : c.originRegistered = true := by rw [hc.originRegistered, horigin]; rfl
  simp [Connect.originConnectDrop, hfd, hreg]

theorem originConnect_ends (hreals : Reals F sys) (hc : Shows fd c v) (hs : Stands F fd a s o v)
    (hord : Orderly o v) (horigin : v.origin = some (n, i)) : ∃ error k t,
      originConnectWriteHandler s n a o error k = .ok t ∧
        Ends F fd a s.stack s.jobs v.dnsJob t (Connect.originConnectWriteHandler sys c) := by
  have hatyp : o.atyp = v.atyp := hord.atyp (Or.inl (by rw [horigin]; rfl))
  have hidle : v.dnsJob = .idle := hord.single.resolve_left (by simp [horigin])
  have hfd : o.originFd = some n := by rw [hs.same.originFd, horigin]; rfl
  unfold Connect.originConnectWriteHandler
  dsimp only
  generalize Connect.originConnectError sys c = status
  by_cases hok : status = .ok
  · rw [if_neg (not_not.mpr hok)]
    obtain ⟨t, ht, hends⟩ := originReply_ends
      (k := answers sys (fits sys (status, ConnState.selectorSetInterest c .origin OP_NOOP)))
      (hc.interest_origin OP_NOOP) (hs.interest_origin OP_NOOP) (Or.inr hidle) hatyp status rfl
    have hwork := sameWork_interest s o.originFd OP_NOOP
    rw [hwork.1, hwork.2] at hends
    rw [hfd] at ht
    exact ⟨status, _, t, (if_pos hok).trans ht, hends⟩
  · rw [if_pos hok]
    obtain ⟨s₁, h₁, b₁⟩ := unregisters_failed hs horigin hok silent
    obtain ⟨s₂, h₂, b₂⟩ := clears b₁.stack silent
    have ho₂ : s₂.heap a = some { o with originRegistered := false } := by
      rw [b₂.heap, b₁.heap, Function.update_self]
    obtain ⟨-, sk, hsk⟩ := hs.around.originOpen n i horigin
    obtain ⟨s₃, h₃, b₃⟩ := originCloseFd_becomes (s := { s₂ with stack := s.stack }) ho₂
      hs.same.released hfd (show s₂.fds n = some sk by rw [b₂.fds, b₁.fds, hsk])
    have hdropped : Stands F fd a s₃ { o with originRegistered := false, originFd := none }
        { v with origin := none } := by
      refine stands_dropped hs horigin ⟨b₃.stack, ?_, ?_, ?_, ?_, ?_, ?_⟩
      · rw [b₃.heap]
        show Function.update s₂.heap a _ = _
        rw [b₂.heap, b₁.heap, Function.update_idem]
      · rw [b₃.items]
        show s₂.items = _
        rw [b₂.items, b₁.items]
      · rw [b₃.fds]
        show Function.update s₂.fds n none = _
        rw [b₂.fds, b₁.fds]
      · rw [b₃.pool]
        show s₂.pool = _
        rw [b₂.pool, b₁.pool]
      · rw [b₃.jobs]
        show s₂.jobs = _
        rw [b₂.jobs, b₁.jobs]
      · rw [b₃.workers]
        show s₂.workers = _
        rw [b₂.workers, b₁.workers]
    let d : Conn := { c with originRegistered := false, originItem := none, originFd := none }.log
      (.close .origin)
    have hd : Shows fd d { v with origin := none } :=
      { hc with originFd := rfl, originItem := rfl, originRegistered := rfl }
    have hlate : early v.current = false := by
      by_contra h
      rw [Bool.not_eq_false] at h
      exact absurd (hord.early h).1 (by simp [horigin])
    obtain ⟨k, t, hk, hends⟩ := originDrop_ends hreals hd hdropped rfl hidle hatyp hlate status
    have hstep : Step s₂ (.run k) t := by
      show step s₂ (.run k) = _
      rw [step_run b₂.stack]
      show originDrop { s₂ with stack := s.stack } a k = _
      unfold originDrop
      rw [h₃]
      exact hk
    have hjobs : s₃.jobs = s.jobs := by
      rw [b₃.jobs]
      show s₂.jobs = _
      rw [b₂.jobs, b₁.jobs]
    rw [b₃.stack, hjobs] at hends
    rw [drop_eq hc horigin]
    exact ⟨status, silent, s₁, h₁, .head h₂ (.head hstep hends)⟩

end Origin

section Notified

/-! socksv5_block_done, between the notification and its cleanup. -/

variable {j : BlockingJob} {rest : List Frame}

theorem jobCleanup_eq {js : List BlockingJob} (hjobs : s.jobs = j :: js)
    (h : socks5Release s j.data = .ok t) : jobCleanup s = .ok { t with jobs := js } := by
  unfold jobCleanup
  split
  next hnil => cases hjobs.symm.trans hnil
  next j' js' hcons =>
    obtain ⟨rfl, rfl⟩ := List.cons.inj (hjobs.symm.trans hcons)
    rw [h]
    rfl

/-- The job's reference is released. -/
theorem cleans (h : Matches F fd a s c) (hstack : s.stack = .cleanup :: rest)
    (hjobs : s.jobs = [j]) (hdata : j.data = a) :
    ∃ t, Leads Step s t ∧ t.stack = rest ∧ t.jobs = [] ∧ Matches F fd a t c := by
  have hstep : ∀ u, socks5Release { s with stack := rest } a = .ok u →
      Step s (.run silent) { u with jobs := [] } := by
    intro u hu
    show step s (.run silent) = _
    rw [step_run hstack]
    exact jobCleanup_eq (s := { s with stack := rest }) hjobs (hdata ▸ hu)
  have hheld : ∀ job, held s job = 1 + if job = .resolving then 1 else 0 := by
    intro job
    rw [held, hjobs]
    rfl
  rcases h with ⟨o, v, hc, hs, hord⟩ | ⟨hclosed, hleft⟩
  · have hrefs : o.references = (if v.dnsJob = .resolving then 1 else 0) + 2 := by
      rw [hs.references, hheld]
      omega
    let o' : Socks5 := { o with references := (if v.dnsJob = .resolving then 1 else 0) + 1 }
    have hstands : Stands F fd a (({ s with stack := rest, jobs := [] } : Server).set a o') o' v :=
      stands_set { hs.same with } (by simp [held, o', Nat.add_comm]) { hs.around with }
    exact ⟨_, .single (hstep _ (release_more hs.heap hrefs)), rfl, rfl,
      Or.inl ⟨o', v, hc, hstands, hord.early, hord.single, hord.atyp⟩⟩
  · rcases hleft.heap with ⟨hzero, -⟩ | ⟨o, ho, hrefs, -, hcancelled⟩
    · rw [hheld] at hzero
      omega
    rw [hheld] at hrefs
    by_cases hresolving : c.dnsJob = .resolving
    · rw [if_pos hresolving] at hrefs
      refine ⟨_, .single (hstep _ (release_more ho hrefs)), rfl, rfl, Or.inr ⟨hclosed, ?_⟩⟩
      refine ⟨hleft.client, hleft.free, hleft.pool, hleft.unlocked, hleft.worker,
        Or.inr ⟨_, Function.update_self .., ?_, ?_, hcancelled⟩⟩
      · simp [held, hresolving]
      · simp [held, hresolving]
    · rw [if_neg hresolving] at hrefs
      refine ⟨_, .single (hstep _ (release_one ho hrefs)), rfl, rfl, Or.inr ⟨hclosed, ?_⟩⟩
      refine ⟨hleft.client, hleft.free, hleft.pool, hleft.unlocked, hleft.worker,
        Or.inl ⟨?_, Function.update_self ..⟩⟩
      simp [held, hresolving]

theorem matches_stack (h : Matches F fd a s c) (fs : List Frame) :
    Matches F fd a { s with stack := fs } c := by
  rcases h with ⟨o, v, hc, hs, hord⟩ | ⟨hclosed, hleft⟩
  · exact Or.inl ⟨o, v, hc, hs.stack fs, hord⟩
  · exact Or.inr ⟨hclosed, { hleft with }⟩

theorem settle_blockDone (sys : Sys) (r : Status × Conn) :
    Connection.socksv5ApplyAction (match r with
      | (.inProgress, c) => (.noop, { c with current := some .connecting })
      | (status, c) =>
        match Connect.connectMarshallReply sys
            { c with requestReply := Connect.connectReplyFromErrno status } with
        | (.error, c) => (.close, { c with current := some .error })
        | (_, c) => (.write, { c with current := some .requestWrite })) = settle sys r := by
  have hanswered : ∀ d, Connection.socksv5ApplyAction
      (match Connect.connectMarshallReply sys d with
        | (.error, c) => (.close, { c with current := some .error })
        | (_, c) => (.write, { c with current := some .requestWrite })) = answered sys d := by
    intro d
    unfold answered
    rcases marshall_cases sys d with herror | ⟨b, -, hreply⟩
    · rw [herror]
      rfl
    · rw [hreply]
      rfl
  obtain ⟨status, d⟩ := r
  cases status with
  | inProgress => rfl
  | ok => exact hanswered _
  | failed e => exact hanswered _

/-- The notification is handled: the entry of the client has the data of the job. -/
theorem handles (h : Stands F fd a s o v) (hjobs : s.jobs = [j]) (hfd : j.fd = fd)
    (hdata : j.data = a) (k : Answers) : handleBlockNotifications s k =
      connectToOrigin { s.set a { o with dnsPending := false } with
        stack := [.cleanup, .notifications] ++ s.stack
        books := { s.books with blockDone := (o.serial, j.lookup) :: s.books.blockDone } } a k := by
  obtain ⟨r, hit⟩ := h.around.client
  have hmatches : (jobMatches s j && jobHandled s j) = true := by
    unfold jobMatches jobHandled
    rw [hfd, hit, hdata]
    simp
  unfold handleBlockNotifications
  split
  next hnil => cases hjobs.symm.trans hnil
  next j' js hcons =>
    obtain ⟨rfl, -⟩ := List.cons.inj (hjobs.symm.trans hcons)
    dsimp only
    rw [if_pos hmatches]
    unfold socksv5BlockDone
    rw [hdata, if_neg (Bool.eq_false_iff.mp (h.push [.cleanup, .notifications]).around.unlocked),
      owned_eq (h.push [.cleanup, .notifications]).heap h.same.released]
    rfl

/-- Both models are done with the job. -/
theorem blockDone_follows (hreals : Reals F sys) (hc : Shows fd c v) (hs : Stands F fd a s o v)
    (hord : Orderly o v) (hstack : s.stack = []) (hjobs : s.jobs = [j]) (hfd : j.fd = fd)
    (hdata : j.data = a) (hqueued : v.dnsJob = .queued) : ∃ t, Leads Step s t ∧ t.stack = [] ∧
      t.jobs = [] ∧ (Connection.socksv5BlockDone sys { c with dnsJob := .idle }).dnsJob ≠ .queued ∧
      Matches F fd a t (Connection.socksv5BlockDone sys { c with dnsJob := .idle }) := by
  have hnone : v.origin = none := hord.single.resolve_right (by simp [hqueued])
  have hatyp : o.atyp = v.atyp := hord.atyp (Or.inr (by simp [hqueued]))
  let v' : View := { v with dnsPending := false, dnsJob := .idle }
  let o' : Socks5 := { o with dnsPending := false }
  let s' : Server := { s with
    stack := [.cleanup, .notifications] ++ s.stack
    books := { s.books with blockDone := (o.serial, j.lookup) :: s.books.blockDone } }
  have hc' : Shows fd { c with dnsJob := .idle, dnsPending := false } v' :=
    { hc with dnsPending := rfl, dnsJob := rfl }
  have hsame : Same fd o' v' := { hs.same with dnsPending := rfl }
  have hrefs : o'.references = 1 + held s' v'.dnsJob := by
    show o.references = _
    rw [hs.references, hqueued]
    rfl
  have hs' : Stands F fd a (s'.set a o') o' v' :=
    stands_set hsame hrefs { hs.around with worker := by intro h; cases h }
  obtain ⟨t, ht, u, hlead, hstack', hjobs', hiff, hmatches⟩ :=
    connectToOrigin_ends hreals hc' hs' hnone rfl hatyp
  have hdone : Connection.socksv5BlockDone sys { c with dnsJob := .idle } =
      settle sys (Connect.connectToOrigin sys { c with dnsJob := .idle, dnsPending := false }) := by
    exact settle_blockDone sys _
  rw [hdone]
  have hbegin : Step s .notifications (s.push [.notifications]) := by
    show step s .notifications = _
    unfold step
    exact if_pos hstack
  have hhandle : Step (s.push [.notifications]) (.run (answers sys (fits sys
      (Connect.connectToOrigin sys { c with dnsJob := .idle, dnsPending := false })))) t := by
    show step _ _ = _
    rw [step_push]
    exact (handles hs hjobs hfd hdata _).trans ht
  have hcleanup : u.stack = .cleanup :: .notifications :: s.stack := hstack'
  obtain ⟨w, hlead', hstack'', hjobs'', hmatches'⟩ := cleans hmatches hcleanup
    (hjobs'.trans hjobs) hdata
  have hend : Step w (.run silent) { w with stack := [] } := by
    show step w (.run silent) = _
    rw [step_run hstack'', hstack]
    show handleBlockNotifications { w with stack := [] } silent = _
    unfold handleBlockNotifications
    dsimp only
    rw [hjobs'']
  exact ⟨_, .head hbegin (.head hhandle (hlead.trans (hlead'.trans (.single hend)))), rfl, hjobs'',
    hiff.not.mpr (by simp), matches_stack hmatches' []⟩

end Notified

section Worker

/-! dns_worker. -/

variable {heap : ℕ → Option Socks5} {js : List BlockingJob} {w w' : DnsWorker} {x : ℕ}
  {error : ℤ} {result : List AddrInfo} {queued : Bool} {found : Option ℕ}

/-- The worker `x` has become `w`; only the heap and the jobs changed besides. -/
structure Advances (s t : Server) (x : ℕ) (w : DnsWorker) (heap : ℕ → Option Socks5)
    (js : List BlockingJob) : Prop where
  workers : t.workers = s.workers.set x w
  heap : t.heap = heap
  jobs : t.jobs = js
  stack : t.stack = s.stack
  items : t.items = s.items
  fds : t.fds = s.fds
  pool : t.pool = s.pool

theorem Advances.self (h : Advances s t x w heap js) (hx : s.workers[x]? = some w') :
    t.workers[x]? = some w := by
  rw [h.workers, List.getElem?_set_self (List.getElem?_eq_some_iff.mp hx).1]

theorem Advances.trans {u : Server} {heap' : ℕ → Option Socks5} {js' : List BlockingJob}
    (h : Advances s t x w heap js) (h' : Advances t u x w' heap' js') :
    Advances s u x w' heap' js' where
  workers := by rw [h'.workers, h.workers, List.set_set]
  heap := h'.heap
  jobs := h'.jobs
  stack := h'.stack.trans h.stack
  items := h'.items.trans h.items
  fds := h'.fds.trans h.fds
  pool := h'.pool.trans h.pool

theorem step_worker (hx : s.workers[x]? = some w) (k : WorkerStep) :
    step s (.worker x k) = dnsWorker s x w k := by
  simp only [step, hx]

theorem unlocked_set (h : s.locked a = false) (hw : w.state.locks = false) (x : ℕ) :
    ((s.workers.set x w).any fun w => w.socks = a && w.state.locks) = false := by
  rw [List.any_eq_false]
  intro p hp
  rcases List.mem_or_eq_of_mem_set hp with hp | rfl
  · exact List.any_eq_false.mp h p hp
  · simp [hw]

/-- getaddrinfo has returned, and the connection wants to know. -/
theorem finishes (hx : s.workers[x]? = some w) (hstate : w.state = .resolving)
    (hfree : s.locked w.socks = false) (ho : s.heap w.socks = some o) (hlive : o.cancelled = false)
    (error : ℤ) (result : List AddrInfo) : ∃ t found,
      Step s (.worker x (.finish error result)) t ∧ found.isSome = decide (result ≠ []) ∧
      Advances s t x { w with state := .notifying } (Function.update s.heap w.socks (some { o with
        dnsPending := false, dnsError := error, dnsResult := found, dnsNext := result }))
        s.jobs := by
  have hstep : step s (.worker x (.finish error result)) = workerFinish s x w error result := by
    rw [step_worker hx]
    exact if_pos hstate
  unfold workerFinish at hstep
  rw [if_neg (Bool.eq_false_iff.mp hfree), ho] at hstep
  dsimp only at hstep
  rw [if_neg (by simp [hlive])] at hstep
  by_cases hnil : result = []
  · rw [if_pos hnil, if_pos hnil] at hstep
    exact ⟨_, none, hstep, by simp [hnil], rfl, rfl, rfl, rfl, rfl, rfl, rfl⟩
  · rw [if_neg hnil, if_neg hnil] at hstep
    exact ⟨_, some _, hstep, by simp [hnil], rfl, rfl, rfl, rfl, rfl, rfl, rfl⟩

/-- It has returned too late. -/
theorem finishes_late (hx : s.workers[x]? = some w) (hstate : w.state = .resolving)
    (hfree : s.locked w.socks = false) (ho : s.heap w.socks = some o) (hlate : o.cancelled = true)
    (error : ℤ) (result : List AddrInfo) : ∃ t found,
      Step s (.worker x (.finish error result)) t ∧
      Advances s t x { w with state := .releasing found } (Function.update s.heap w.socks
        (some { o with dnsPending := false })) s.jobs := by
  have hstep : step s (.worker x (.finish error result)) = workerFinish s x w error result := by
    rw [step_worker hx]
    exact if_pos hstate
  unfold workerFinish at hstep
  rw [if_neg (Bool.eq_false_iff.mp hfree), ho] at hstep
  dsimp only at hstep
  rw [if_pos hlate] at hstep
  by_cases hnil : result = []
  · rw [if_pos hnil, if_pos hnil] at hstep
    exact ⟨_, none, hstep, rfl, rfl, rfl, rfl, rfl, rfl, rfl⟩
  · rw [if_neg hnil, if_neg hnil] at hstep
    exact ⟨_, some _, hstep, rfl, rfl, rfl, rfl, rfl, rfl, rfl⟩

theorem notifies (hx : s.workers[x]? = some w) (hstate : w.state = .notifying)
    (hstack : s.stack = []) (queued : Bool) : ∃ t, Step s (.worker x (.notify queued)) t ∧
      Advances s t x { w with state := .unlocking queued } s.heap
        (if queued then { fd := w.clientFd, data := w.socks, lookup := w.lookup } :: s.jobs
          else s.jobs) := by
  have hstep : step s (.worker x (.notify queued)) = selectorNotifyBlockDone s x w queued := by
    rw [step_worker hx]
    exact if_pos hstate
  unfold selectorNotifyBlockDone at hstep
  cases queued with
  | false => exact ⟨_, hstep, rfl, rfl, rfl, rfl, rfl, rfl, rfl⟩
  | true =>
    rw [if_pos rfl, if_neg (by simp [Server.selectorGone, hstack]),
      if_neg (by simp [Server.draining, hstack])] at hstep
    exact ⟨_, hstep, rfl, rfl, rfl, rfl, rfl, rfl, rfl⟩

theorem unlocks (hx : s.workers[x]? = some w) (hstate : w.state = .unlocking queued)
    (ho : s.heap w.socks = some o) : ∃ t, Step s (.worker x .unlock) t ∧
      Advances s t x { w with state := if queued then .freeing none else .releasing none } s.heap
        s.jobs := by
  have hstep : step s (.worker x .unlock) =
      .ok (setWorker s x w (if queued then .freeing none else .releasing none)) := by
    rw [step_worker hx]
    unfold dnsWorker
    simp only [hstate, ho, Option.isSome_some, if_true]
  exact ⟨_, hstep, rfl, rfl, rfl, rfl, rfl, rfl, rfl⟩

theorem release_step {u : Server} (hx : s.workers[x]? = some w)
    (hstate : w.state = .releasing found) (hrelease : socks5Release s w.socks = .ok u) :
    Step s (.worker x .release) (setWorker u x w (.freeing found)) := by
  show step s _ = _
  rw [step_worker hx]
  unfold dnsWorker
  simp only [hstate, hrelease]
  rfl

theorem releases (hx : s.workers[x]? = some w) (hstate : w.state = .releasing found)
    (ho : s.heap w.socks = some o) (hrefs : o.references = n + 2) : ∃ t,
      Step s (.worker x .release) t ∧ Advances s t x { w with state := .freeing found }
        (Function.update s.heap w.socks (some { o with references := n + 1 })) s.jobs :=
  ⟨_, release_step hx hstate (release_more ho hrefs), rfl, rfl, rfl, rfl, rfl, rfl, rfl⟩

theorem releases_last (hx : s.workers[x]? = some w) (hstate : w.state = .releasing found)
    (ho : s.heap w.socks = some o) (hrefs : o.references = 1) : ∃ t,
      Step s (.worker x .release) t ∧ Advances s t x { w with state := .freeing found }
        (Function.update s.heap w.socks none) s.jobs :=
  ⟨_, release_step hx hstate (release_one ho hrefs), rfl, rfl, rfl, rfl, rfl, rfl, rfl⟩

theorem exits (hx : s.workers[x]? = some w) (hstate : w.state = .freeing found) :
    ∃ t, Step s (.worker x .exit) t ∧ Advances s t x { w with state := .exited } s.heap s.jobs := by
  cases found with
  | none =>
    have hstep : step s (.worker x .exit) = .ok (setWorker s x w .exited) := by
      rw [step_worker hx]
      unfold dnsWorker
      simp only [hstate]
    exact ⟨_, hstep, rfl, rfl, rfl, rfl, rfl, rfl, rfl⟩
  | some r =>
    have hstep : step s (.worker x .exit) = .ok { setWorker s x w .exited with
        books := { s.books with results := s.books.results.settle r } } := by
      rw [step_worker hx]
      unfold dnsWorker
      simp only [hstate]
    exact ⟨_, hstep, rfl, rfl, rfl, rfl, rfl, rfl, rfl⟩

/-- What the worker has done to an open connection. -/
theorem stands_worked {o' : Socks5} {v' : View} (hs : Stands F fd a s o v)
    (hadv : Advances s t x w (Function.update s.heap a (some o')) js)
    (hw : w.state.locks = false) (hsame : Same fd o' v')
    (href : o'.references = 1 + held t v'.dnsJob) (hclient : v'.client = v.client)
    (horigin : v'.origin = v.origin) (hjob : v'.dnsJob ≠ .resolving) : Stands F fd a t o' v' := by
  have hold := hs.around
  refine ⟨by rw [hadv.heap, Function.update_self], href, hsame, ?_⟩
  exact
    { client := by
        rw [hadv.items, hclient]
        exact hold.client
      origin := by
        rw [hadv.items, horigin]
        exact hold.origin
      clientOpen := by
        rw [hadv.fds]
        exact hold.clientOpen
      originOpen := by
        rw [hadv.fds, horigin]
        exact hold.originOpen
      free := by
        rw [hadv.fds, hadv.items, horigin]
        exact hold.free
      pool := hadv.pool ▸ hold.pool
      nodup := hadv.pool ▸ hold.nodup
      alive := by
        intro b hb
        rw [hadv.pool] at hb
        rw [hadv.heap]
        by_cases hba : b = a
        · rw [hba, Function.update_self]
          exact ⟨o', rfl, hsame.released⟩
        · rw [Function.update_of_ne hba]
          exact hold.alive b hb
      unlocked := by
        unfold Server.locked
        rw [hadv.workers]
        exact unlocked_set hold.unlocked hw x
      worker := fun h => absurd h hjob }

/-- A lookup ends while the connection is open. -/
theorem worker_open (hc : Shows fd c v) (hs : Stands F fd a s o v) (hord : Orderly o v)
    (hstack : s.stack = []) (hjobs : s.jobs = []) (hjob : v.dnsJob = .resolving) (error : ℤ)
    (result : List AddrInfo) (queued : Bool) : ∃ t, Leads Step s t ∧ t.stack = [] ∧
      (∃ l, t.jobs = if queued then [⟨fd, a, l⟩] else []) ∧
      Matches F fd a t (Connection.dnsWorkerStore error result queued c) := by
  obtain ⟨x, w, hx, rfl, rfl, hstate⟩ := hs.around.worker hjob
  obtain ⟨s₁, found, h₁, hfound, a₁⟩ := finishes hx hstate hs.around.unlocked hs.heap
    hs.same.cancelled error result
  obtain ⟨s₂, h₂, a₂⟩ := notifies (a₁.self hx) rfl (a₁.stack.trans hstack) queued
  have ho₂ : s₂.heap w.socks = some { o with
      dnsPending := false, dnsError := error, dnsResult := found, dnsNext := result } := by
    rw [a₂.heap, a₁.heap, Function.update_self]
  obtain ⟨s₃, h₃, a₃⟩ := unlocks (a₂.self (a₁.self hx)) rfl ho₂
  let v' : View := { v with
    dnsPending := false, dnsError := error, found := decide (result ≠ []), dnsNext := result
    dnsJob := if queued then .queued else .idle }
  have hc' : Shows w.clientFd (Connection.dnsWorkerStore error result queued c) v' := by
    unfold Connection.dnsWorkerStore
    rw [if_neg (by simp [hc.cancelled])]
    exact { hc with
      dnsPending := rfl, dnsError := rfl, dnsNext := rfl, dnsJob := rfl, found := by simp [v'] }
  have hnone : v.origin = none := hord.single.resolve_right (by simp [hjob])
  have hatyp : o.atyp = v.atyp := hord.atyp (Or.inr (by simp [hjob]))
  have hearly : early v.current = false := by
    by_contra h
    rw [Bool.not_eq_false] at h
    exact absurd (hord.early h).2 (by simp [hjob])
  have hsame : ∀ m, Same w.clientFd { o with
      references := m, dnsPending := false, dnsError := error, dnsResult := found
      dnsNext := result } v' := fun m =>
    { hs.same with dnsPending := rfl, dnsError := rfl, found := hfound, dnsNext := rfl }
  have hrefs : o.references = 2 := by
    rw [hs.references, held, hjobs, hjob]
    rfl
  have hord' : ∀ m, Orderly { o with
      references := m, dnsPending := false, dnsError := error, dnsResult := found
      dnsNext := result } v' := by
    refine fun m => ⟨fun h => ?_, Or.inl hnone, fun _ => hatyp⟩
    rw [show early v.current = true from h] at hearly
    cases hearly
  have hheap : s₃.heap = Function.update s.heap w.socks (some { o with
      dnsPending := false, dnsError := error, dnsResult := found, dnsNext := result }) := by
    rw [a₃.heap, a₂.heap, a₁.heap]
  have hx₃ := a₃.self (a₂.self (a₁.self hx))
  cases queued with
  | true =>
    obtain ⟨s₄, h₄, a₄⟩ := exits hx₃ rfl
    have a₁₄ := a₁.trans (a₂.trans (a₃.trans a₄))
    have hjobs₄ : s₄.jobs = [⟨w.clientFd, w.socks, w.lookup⟩] := by
      rw [a₄.jobs, a₃.jobs, a₂.jobs, a₁.jobs, hjobs]
      rfl
    rw [hheap] at a₁₄
    have href : o.references = 1 + held s₄ v'.dnsJob := by
      rw [hrefs, held, hjobs₄]
      rfl
    exact ⟨s₄, .head h₁ (.head h₂ (.head h₃ (.single h₄))), a₁₄.stack.trans hstack,
      ⟨w.lookup, hjobs₄⟩, Or.inl ⟨_, v', hc',
        stands_worked hs a₁₄ rfl (hsame o.references) href rfl rfl (by simp [v']), hord' _⟩⟩
  | false =>
    have ho₃ : s₃.heap w.socks = some { o with
        dnsPending := false, dnsError := error, dnsResult := found, dnsNext := result } := by
      rw [hheap, Function.update_self]
    obtain ⟨s₄, h₄, a₄⟩ := releases (n := 0) hx₃ rfl ho₃ hrefs
    obtain ⟨s₅, h₅, a₅⟩ := exits (a₄.self hx₃) rfl
    have a₁₅ := a₁.trans (a₂.trans (a₃.trans (a₄.trans a₅)))
    have hjobs₅ : s₅.jobs = [] := by
      rw [a₅.jobs, a₄.jobs, a₃.jobs, a₂.jobs, a₁.jobs, hjobs]
      rfl
    rw [a₄.heap, hheap, Function.update_idem] at a₁₅
    have href : 1 = 1 + held s₅ v'.dnsJob := by
      rw [held, hjobs₅]
      rfl
    exact ⟨s₅, .head h₁ (.head h₂ (.head h₃ (.head h₄ (.single h₅)))), a₁₅.stack.trans hstack,
      ⟨w.lookup, hjobs₅⟩, Or.inl ⟨_, v', hc',
        stands_worked hs a₁₅ rfl (hsame 1) href rfl rfl (by simp [v']), hord' _⟩⟩

/-- A lookup ends after the connection was closed: the worker drops the last reference. -/
theorem worker_closed (hclosed : Dialing.Closed c) (hleft : Left F fd a s .resolving)
    (hstack : s.stack = []) (hjobs : s.jobs = []) (error : ℤ)
    (result : List AddrInfo) (queued : Bool) : ∃ t, Leads Step s t ∧ t.stack = [] ∧
      t.jobs = [] ∧ (Connection.dnsWorkerStore error result queued c).dnsJob = .idle ∧
      Matches F fd a t (Connection.dnsWorkerStore error result queued c) := by
  obtain ⟨x, w, hx, rfl, rfl, hstate⟩ := hleft.worker rfl
  have hheld : held s .resolving = 1 := by
    rw [held, hjobs]
    rfl
  rcases hleft.heap with ⟨hzero, -⟩ | ⟨o, ho, hrefs, -, hcancelled⟩
  · omega
  obtain ⟨s₁, found, h₁, a₁⟩ := finishes_late hx hstate hleft.unlocked ho hcancelled error result
  have ho₁ : s₁.heap w.socks = some { o with dnsPending := false } := by
    rw [a₁.heap, Function.update_self]
  obtain ⟨s₂, h₂, a₂⟩ := releases_last (a₁.self hx) rfl ho₁ (hrefs.trans hheld)
  obtain ⟨s₃, h₃, a₃⟩ := exits (a₂.self (a₁.self hx)) rfl
  have a₁₃ := a₁.trans (a₂.trans a₃)
  have hjobs₃ : s₃.jobs = [] := by rw [a₃.jobs, a₂.jobs, a₁.jobs, hjobs]
  have hlost : Connection.dnsWorkerStore error result queued c =
      { c with dnsPending := false, dnsJob := .idle } := by
    unfold Connection.dnsWorkerStore
    rw [if_pos hclosed.cancelled_eq]
  rw [hlost]
  refine ⟨s₃, .head h₁ (.head h₂ (.single h₃)), a₁₃.stack.trans hstack, hjobs₃, rfl,
    Or.inr ⟨{ hclosed with }, Left.mk ?_ ?_ ?_ ?_ (fun h => by cases h) (Or.inl ⟨?_, ?_⟩)⟩⟩
  · rw [a₁₃.fds, a₁₃.items]
    exact hleft.client
  · rw [a₁₃.fds, a₁₃.items]
    exact hleft.free
  · rw [a₁₃.pool]
    exact hleft.pool
  · unfold Server.locked
    rw [a₁₃.workers]
    exact unlocked_set hleft.unlocked rfl x
  · rw [held, hjobs₃]
    rfl
  · rw [a₃.heap, a₂.heap, Function.update_self]

end Worker

end SocksProxy.ServerJobs
