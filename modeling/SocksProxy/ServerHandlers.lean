import SocksProxy.ServerLoops

/-!
What the main thread begins when it is in the selector, and what the workers do.
A handler finds a connection that stands, and leaves it standing, closing, or in
the middle of its connect; a worker touches only what its lookup is for.
-/
namespace SocksProxy.ServerHandlers

open Kernel Ledgers ServerState ServerSteps ServerRefs ServerSockets ServerLookups
open ServerEntries ServerPool ServerParts ServerStages ServerClosing ServerDials ServerLoops
open ConnState (Socks5State FdInterest OP_NOOP OP_READ OP_WRITE)

variable {s t : Server} {b : Bottom} {d : Doing} {a fd i n : ℕ} {o o' : Socks5} {k : Answers}
variable {w : DnsWorker} {jobs : List BlockingJob} {cs : List ℕ}

section Handlers

variable {op : FdInterest → Bool} {handler : Handler}

theorem dispatched_iff : dispatched s fd handler op = some a ↔ ∃ it, s.items fd = some it ∧
    it.handler = handler ∧ op it.interest = true ∧ it.data = some a := by
  unfold dispatched
  cases s.items fd with
  | none => simp
  | some it =>
    by_cases hcase : it.handler = handler ∧ op it.interest = true <;> simp [hcase]
    tauto

/-- A handler is called with a connection that stands, and has the descriptor. -/
theorem callHandler_good (h : Ok s .nothing .idle) (side : Side) (hhandler : handler = handlerOf side)
    {f : ℕ → Socks5 → Except Halt Server}
    (hf : ∀ a o, s.heap a = some o → o.released = false →
      Standing .idle (flying s.workers s.jobs a) o → sideRegistered side o = true →
      sideFd side o = some fd → (∃ it, s.items fd = some it ∧ it.handler = handler ∧
        it.data = some a) → Good (f a o)) :
    Good (callHandler s fd handler op f) := by
  have hparts : Parts none s s.jobs s.jobs [] := h.ground.parts
  unfold callHandler
  split
  next => exact good_unreal
  next a hdispatched =>
    obtain ⟨it, hit, hit', -, hdata⟩ := dispatched_iff.mp hdispatched
    obtain ⟨o, ho, hreg, hfd, -⟩ :=
      hparts.entries.belongs hit List.not_mem_nil (hit'.trans hhandler) hdata
    have hopen := registered_open hparts ho hreg
    rw [owned_eq ho hopen]
    exact hf a o ho hopen (h.ground.standing a o ho hopen (by simp [Doing.subject])) hreg hfd
      ⟨it, hit, hit', hdata⟩

theorem flush_ground (fd : Option ℕ) (f : Flush) (h : Ground s b [] [] (some a))
    (hb : b.serves = true) : Ground (relayFlush s fd f).2 b [] [] (some a) ∧
      (relayFlush s fd f).2.heap = s.heap ∧ (relayFlush s fd f).2.workers = s.workers ∧
      (relayFlush s fd f).2.jobs = s.jobs := by
  have hparts := h.parts.flush fd f
  obtain ⟨bytes, writes, heq, -⟩ := relayFlush_spec s fd f
  rw [heq] at hparts ⊢
  exact ⟨h.advance (Bottom.closes_of_serves hb) hparts h.stack h.clearing_nodup (fun c _ => rfl) rfl
    rfl (Or.inl hb), rfl, rfl, rfl⟩

theorem interest_ground (h : Ground s b [] [] (some a)) (hb : b.serves = true) (fd : Option ℕ)
    (i : FdInterest) : Ground (selectorSetInterest s fd i) b [] [] (some a) := by
  have hstack : (selectorSetInterest s fd i).stack = [] ++ b.frames := by
    rw [selectorSetInterest_stack]
    exact h.stack
  exact h.advance (Bottom.closes_of_serves hb) (h.parts.interest fd i) hstack h.clearing_nodup
    (fun c _ => congrFun (selectorSetInterest_heap s fd i) c) (selectorSetInterest_workers s fd i)
    (selectorSetInterest_jobs s fd i) (Or.inl hb)

theorem updateInterests_good (h : Ground s b [] [] (some a)) (hb : b.serves = true)
    (ho : s.heap a = some o) (q : Socks5) (client origin : FdInterest)
    (hstanding : Standing b (flying s.workers (b.pending s.jobs) a) o) :
    Good (.ok (relayUpdateInterests s q client origin)) := by
  have hclient := interest_ground h hb q.clientFd client
  apply interest_good hclient hb
  · rw [selectorSetInterest_heap]
    exact ho
  · rw [selectorSetInterest_workers, selectorSetInterest_jobs]
    exact hstanding

theorem relayHandler_good (h : Ground s .idle [] [] (some a)) (ho : s.heap a = some o)
    (hopen : o.released = false) (hstanding : Standing .idle (flying s.workers s.jobs a) o)
    (fd : Option ℕ) (r : Relays) : Good (relayHandler s a o fd r) := by
  cases r with
  | closes f =>
    obtain ⟨hground, hheap, -⟩ := flush_ground fd f h rfl
    exact closes_good hground rfl (hheap ▸ ho) hopen hstanding.toOpen (by simp)
  | continues f client origin =>
    obtain ⟨hground, hheap, hworkers, hjobs⟩ := flush_ground fd f h rfl
    simp only [relayHandler]
    generalize relayFlush s fd f = r at hground hheap hworkers hjobs ⊢
    obtain ⟨open', t⟩ := r
    cases open' with
    | true =>
      apply updateInterests_good hground rfl (hheap ▸ ho)
      rw [hworkers, hjobs]
      exact hstanding
    | false => exact closes_good hground rfl (hheap ▸ ho) hopen hstanding.toOpen (by simp)

/-- A connection that does not wait for a lookup goes to another state. -/
theorem standing_state (h : Standing b n o) (hnot : o.current ≠ .connecting) {st : Socks5State}
    (hst : early st = true → early o.current = true) :
    Standing b n { o with current := st } :=
  { closing := h.closing
    cancelled := h.cancelled
    clientRegistered := h.clientRegistered
    unregistered := h.unregistered
    waiting := fun hn => absurd (h.waiting hn).2 hnot
    settled := fun hearly => h.settled (hst hearly) }

theorem readsTo_early {st st' : Socks5State} (h : readsTo st st' = true) :
    st ≠ .connecting ∧ early st = true := by
  revert h
  cases st <;> cases st' <;> decide

theorem writesTo_early {st st' : Socks5State} (h : writesTo st st' = true) :
    st ≠ .connecting ∧ (early st' = true → early st = true) := by
  revert h
  cases st <;> cases st' <;> decide

theorem socksv5Read_good (h : Ground s .idle [] [] (some a)) (ho : s.heap a = some o)
    (hopen : o.released = false) (hstanding : Standing .idle (flying s.workers s.jobs a) o)
    (r : Reads) : Good (socksv5Read s a o k r) := by
  cases r with
  | again => exact interest_good h rfl ho _ _ hstanding
  | closes => exact closes_good h rfl ho hopen hstanding.toOpen (by simp)
  | goes st pending =>
    rw [socksv5Read]
    by_cases hreadable : readable o.current = false
    · rw [if_pos hreadable]
      exact good_abort
    rw [if_neg hreadable]
    by_cases hst : readsTo o.current st = true
    · rw [if_pos hst]
      have hground : Ground (s.set a { o with current := st }) .idle [] [] (some a) :=
        set_ground h rfl ho ⟨rfl, rfl, rfl, rfl, rfl, rfl, rfl⟩ rfl rfl rfl
      exact interest_good hground rfl (Function.update_self _ _ _) _ _
        (standing_state hstanding (readsTo_early hst).1 fun _ => (readsTo_early hst).2)
    · rw [if_neg hst]
      exact good_unreal
  | dials atyp =>
    rw [socksv5Read]
    split
    next hcurrent =>
      have hground : Ground (s.set a { o with atyp := atyp }) .idle [] [] (some a) :=
        set_ground h rfl ho ⟨rfl, rfl, rfl, rfl, rfl, rfl, rfl⟩ rfl rfl rfl
      have hnone : o.originFd = none := hstanding.settled (by rw [hcurrent]; rfl)
      have hzero : flying s.workers s.jobs a = 0 := by
        by_contra hn
        have hconnecting := (hstanding.waiting (Nat.pos_of_ne_zero hn)).2
        rw [hcurrent] at hconnecting
        exact absurd hconnecting (by simp)
      exact connectToOrigin_good hground rfl (Function.update_self _ _ _) hopen
        ⟨hstanding.closing, hstanding.cancelled, hstanding.clientRegistered⟩ hnone hzero
    next => exact good_unreal

theorem socksv5Write_good (h : Ground s .idle [] [] (some a)) (ho : s.heap a = some o)
    (hopen : o.released = false) (hstanding : Standing .idle (flying s.workers s.jobs a) o)
    (r : Writes) : Good (socksv5Write s a o r) := by
  cases r with
  | again => exact interest_good h rfl ho _ _ hstanding
  | closes => exact closes_good h rfl ho hopen hstanding.toOpen (by simp)
  | goes st pending =>
    rw [socksv5Write]
    by_cases hwritable : writable o.current = false
    · rw [if_pos hwritable]
      exact good_abort
    rw [if_neg hwritable]
    by_cases hst : writesTo o.current st = true
    · rw [if_pos hst]
      have hground : Ground (s.set a { o with current := st }) .idle [] [] (some a) :=
        set_ground h rfl ho ⟨rfl, rfl, rfl, rfl, rfl, rfl, rfl⟩ rfl rfl rfl
      exact interest_good hground rfl (Function.update_self _ _ _) _ _
        (standing_state hstanding (writesTo_early hst).1 (writesTo_early hst).2)
    · rw [if_neg hst]
      exact good_unreal
  | starts client origin =>
    rw [socksv5Write]
    split
    next hcurrent =>
      have hground : Ground (s.set a { o with current := .relay, relayStarted := true })
          .idle [] [] (some a) :=
        set_ground h rfl ho ⟨rfl, rfl, rfl, rfl, rfl, rfl, rfl⟩ rfl rfl rfl
      have hnot : o.current ≠ .connecting := by
        rw [hcurrent]
        simp
      have hrelay : Standing .idle (flying s.workers s.jobs a) { o with current := .relay } :=
        standing_state hstanding hnot (by simp [early])
      exact updateInterests_good hground rfl (Function.update_self _ _ _) o client origin
        ⟨⟨hrelay.closing, hrelay.cancelled, hrelay.clientRegistered⟩, hrelay.unregistered,
          hrelay.waiting, hrelay.settled⟩
    next => exact good_unreal

/-- The connect of the origin came to an end. -/
theorem originConnectWriteHandler_good (h : Ground s .idle [] [] (some a))
    (ho : s.heap a = some o) (hopen : o.released = false)
    (hstanding : Standing .idle (flying s.workers s.jobs a) o) (hreg : o.originRegistered = true)
    (hfd : o.originFd = some fd) {it : Item} (hit : s.items fd = some it)
    (hhandler : it.handler = .origin) (hdata : it.data = some a) (error : Status) :
    Good (originConnectWriteHandler s fd a o error k) := by
  have hzero : flying s.workers s.jobs a = 0 := by
    by_contra hn
    have hnone := (hstanding.waiting (Nat.pos_of_ne_zero hn)).1
    exact absurd (hnone.symm.trans hfd) (by simp)
  have hlate : early o.current = false := by
    by_contra hearly
    have hnone := hstanding.settled (by simpa using hearly)
    exact absurd (hnone.symm.trans hfd) (by simp)
  unfold originConnectWriteHandler
  split
  next herror =>
    apply originConnectReply_good (interest_ground h rfl (some fd) OP_NOOP) rfl _ hopen
      hstanding.toOpen (fun hunreg => absurd (hreg.symm.trans hunreg) (by simp))
    · rw [selectorSetInterest_workers, selectorSetInterest_jobs]
      exact hzero
    · rw [selectorSetInterest_heap]
      exact ho
  next herror =>
    rw [if_pos (by simp [hreg, hfd])]
    have hparts := ground_parts h rfl
    have hsame : ({ { o with originRegistered := false } with originRegistered := false } :
        Socks5) = { o with originRegistered := false } := rfl
    obtain ⟨t, ht, hparts', hheap, hitems, hworkers, hjobs, hstack⟩ :=
      hparts.unregister_origin hit List.not_mem_nil hhandler hdata ho hopen [.originDrop a] hsame
    rw [ht]
    have hstack' : t.stack = (Doing.clearDrop a fd).frames ++ Bottom.idle.frames := by
      have hnil : s.stack = [] := h.stack
      rw [hstack, hnil]
      rfl
    exact set_good (d := .clearDrop a fd) h rfl rfl rfl hparts' hstack' (by
      simp [Doing.clearing, Bottom.clearing]) hheap hworkers hjobs (Or.inl rfl) hopen
      ⟨⟨hstanding.closing, hstanding.cancelled, hstanding.clientRegistered⟩, rfl, hlate, hzero⟩

end Handlers

section Accept

/-- No lookup is on its way to an address that is free. -/
theorem flying_free (h : Parts none s jobs jobs cs) (hfree : s.heap a = none) :
    flying s.workers jobs a = 0 := by
  have hworkers : s.workers.countP (fun w => w.socks = a && w.state.flying) = 0 := by
    apply List.countP_eq_zero.mpr
    intro w hw hcount
    rw [Bool.and_eq_true, decide_eq_true_eq] at hcount
    obtain ⟨i, hi⟩ := List.getElem?_of_mem hw
    have hholds : w.state.holds = true := by
      cases hst : w.state <;> simp_all [WorkerState.flying, WorkerState.holds]
    obtain ⟨p, hp, -⟩ := h.refs.worker_live i w hi hholds
    rw [hcount.1, hfree] at hp
    exact absurd hp (by simp)
  have hqueued : queued jobs a = 0 := by
    apply List.countP_eq_zero.mpr
    intro j hj hdata
    obtain ⟨p, hp, -⟩ := h.refs.job_live j hj
    rw [show j.data = a by simpa using hdata, hfree] at hp
    exact absurd hp (by simp)
  rw [flying, hworkers, hqueued]

/-- The main thread is back in the selector, and no connection has changed. -/
theorem back_good (h : Ok s .nothing .idle) (hparts : Parts none t s.jobs s.jobs [])
    (hheap : t.heap = s.heap) (hcalm : Calm s t) : Good (.ok t) := by
  have hjobs : t.jobs = s.jobs := hcalm.jobs
  have hworkers : t.workers = s.workers := hcalm.workers
  apply bottom_good (b := .idle) _ (hcalm.stack.trans h.ground.stack) _ trivial
  · rw [hjobs]
    exact hparts
  · intro c p hp hopen
    rw [hheap] at hp
    rw [hworkers, hjobs]
    exact h.ground.standing c p hp hopen (by simp [Doing.subject])

theorem accept_good (h : Ok s .nothing .idle) (nio : Bool) (state : Option ℕ) :
    Good (socksv5PassiveAccept s fd nio state) := by
  have hparts : Parts none s s.jobs s.jobs [] := h.ground.parts
  unfold socksv5PassiveAccept
  split
  next => exact good_unreal
  next hused =>
    have hfd : s.fds fd = none := by simpa using hused
    obtain ⟨u, hclose, hpassed, hheap, hcalm⟩ := hparts.count.pass hfd (some s.accepted) .client
    have hback : Good (sysClose { sysOpen s fd (some s.accepted) .client with
        accepted := s.accepted + 1 } fd) := by
      rw [show sysClose { sysOpen s fd (some s.accepted) .client with
        accepted := s.accepted + 1 } fd = .ok u from hclose]
      exact back_good h hpassed hheap ⟨hcalm.workers, hcalm.jobs, hcalm.stack⟩
    dsimp only
    split
    next a =>
      split
      next => exact good_unreal
      next hfree =>
        rw [Bool.or_eq_true, not_or] at hfree
        have hnone : s.heap a = none := Option.not_isSome_iff_eq_none.mp hfree.1
        split
        next hr =>
          obtain ⟨v, hv, hparts', hheap', hcalm'⟩ := hparts.turn_away hfd hnone
          show Good ((ownerRelease (Parts.allocated s fd a) a).bind fun s => sysClose s fd)
          rw [hv]
          exact back_good h hparts' hheap' hcalm'
        next v hr =>
          obtain ⟨hparts', hcalm', hheap'⟩ := hparts.accepted hfd hnone hr
          let u : Server :=
            socksv5PoolAdd (v.set a { socks5Init s.accepted fd with clientRegistered := true }) a
          have hu : Parts none u s.jobs s.jobs [] := hparts'
          have hjobs : u.jobs = s.jobs := hcalm'.jobs
          have hworkers : u.workers = s.workers := hcalm'.workers
          have hstack : u.stack = [] := hcalm'.stack.trans h.ground.stack
          have huheap : u.heap = Function.update s.heap a
              (some { socks5Init s.accepted fd with clientRegistered := true }) := by
            show Function.update v.heap a _ = _
            rw [hheap', Function.update_idem]
          show Good (.ok u)
          apply bottom_good (b := .idle) _ hstack _ trivial
          · rw [hjobs]
            exact hu
          · intro c p hp hopen
            rw [huheap] at hp
            rw [hworkers, hjobs]
            rcases update_some hp with ⟨rfl, rfl⟩ | ⟨-, hp⟩
            · have hzero : flying s.workers s.jobs c = 0 := flying_free hparts hnone
              exact
                { closing := rfl
                  cancelled := rfl
                  clientRegistered := rfl
                  unregistered := fun _ => Or.inl rfl
                  waiting := fun hn => absurd hzero (Nat.ne_of_gt hn)
                  settled := fun _ => rfl }
            · exact h.ground.standing c p hp hopen (by simp [Doing.subject])
    next => exact hback

theorem otherOpen_good (h : Ok s .nothing .idle) (state : Option ℕ) (i : FdInterest) :
    Good (otherOpen s fd state i) := by
  have hparts : Parts none s s.jobs s.jobs [] := h.ground.parts
  unfold otherOpen
  split
  next => exact good_unreal
  next hused =>
    rw [Bool.or_eq_true, not_or] at hused
    have hfd : s.fds fd = none := Option.not_isSome_iff_eq_none.mp hused.1
    dsimp only
    split
    next hr =>
      obtain ⟨u, hclose, hpassed, hheap, hcalm⟩ := hparts.pass hfd none .client
      rw [hclose]
      exact back_good h hpassed hheap hcalm
    next v hr =>
      obtain ⟨hparts', hcalm, hheap⟩ := hparts.other_open hfd hr
      let u : Server :=
        { v with taken := state.elim v.taken fun b => Function.update v.taken b true }
      have hu : Parts none u s.jobs s.jobs [] :=
        ⟨hparts'.refs, hparts'.sockets, hparts'.results, hparts'.lookups, hparts'.entries,
          hparts'.pool, hparts'.gone⟩
      exact back_good (t := u) h hu hheap ⟨hcalm.workers, hcalm.jobs, hcalm.stack⟩

theorem otherClose_good (h : Ok s .nothing .idle) : Good (otherClose s fd) := by
  have hparts : Parts none s s.jobs s.jobs [] := h.ground.parts
  have hnil : s.stack = [] := h.ground.stack
  unfold otherClose
  split
  next it hit =>
    split
    next hother =>
      obtain ⟨t, ht, hparts', hheap, hitems, hfds, hworkers, hjobs, hstack⟩ :=
        hparts.unregister_other hit List.not_mem_nil hother [.close fd]
      rw [ht]
      apply bottom_good (b := .clearOther fd it.data)
      · rw [hjobs]
        exact hparts'
      · rw [hstack, hnil]
        rfl
      · intro c p hp hopen
        rw [hheap] at hp
        rw [hworkers, hjobs]
        exact (h.ground.standing c p hp hopen (by simp [Doing.subject])).bottom fun hd => hd
      · obtain ⟨-, sk, hsk, howner⟩ := hparts.entries.other fd it hit List.not_mem_nil hother
        exact ⟨sk, by rw [hfds]; exact hsk, howner⟩
    next => exact good_unreal
  next => exact good_unreal

end Accept

/-- What the idle main thread may begin. -/
theorem begins_good (h : Ok s .nothing .idle) (e : Event) : Good (begins s e) := by
  have hparts : Parts none s s.jobs s.jobs [] := h.ground.parts
  have hpick : ∀ a, Ground s .idle [] [] (some a) := fun a => h.ground.pick rfl a
  have hstanding : ∀ c p, s.heap c = some p → p.released = false →
      Standing .idle (flying s.workers s.jobs c) p :=
    fun c p hp hopen => h.ground.standing c p hp hopen (by simp [Doing.subject])
  have hbegin : ∀ b : Bottom, b.clearing = [] → b.pending s.jobs = s.jobs →
      b.Footing s none → Good (.ok (s.push b.frames)) := by
    intro b hcs hpending hfooting
    have hstack : (s.push b.frames).stack = b.frames := by
      have hnil : s.stack = [] := h.ground.stack
      show b.frames ++ s.stack = _
      rw [hnil, List.append_nil]
    have hb : Bottom.idle.destroying = true → b.destroying = true := fun hd => absurd hd (by decide)
    apply bottom_good _ hstack
    · intro c p hp hopen
      show Standing b (flying s.workers (b.pending s.jobs) c) p
      rw [hpending]
      exact (hstanding c p hp hopen).bottom hb
    · cases b <;> exact hfooting
    · show Parts none (s.push b.frames) s.jobs (b.pending s.jobs) b.clearing
      rw [hcs, hpending]
      exact hparts.stack _
  cases e with
  | accept fd nio state => exact accept_good h nio state
  | clientRead fd r relay k =>
    apply callHandler_good h .client rfl
    intro a o ho hopen hstands _ _ _
    split
    · exact relayHandler_good (hpick a) ho hopen hstands _ relay
    · exact socksv5Read_good (hpick a) ho hopen hstands r
  | clientWrite fd w relay =>
    apply callHandler_good h .client rfl
    intro a o ho hopen hstands _ _ _
    split
    · exact relayHandler_good (hpick a) ho hopen hstands _ relay
    · exact socksv5Write_good (hpick a) ho hopen hstands w
  | originRead fd relay =>
    apply callHandler_good h .origin rfl
    intro a o ho hopen hstands _ _ _
    exact relayHandler_good (hpick a) ho hopen hstands _ relay
  | originWrite fd error relay k =>
    apply callHandler_good h .origin rfl
    intro a o ho hopen hstands hreg hfd hit
    obtain ⟨it, hit, hhandler, hdata⟩ := hit
    split
    · exact relayHandler_good (hpick a) ho hopen hstands _ relay
    · exact originConnectWriteHandler_good (hpick a) ho hopen hstands hreg hfd hit hhandler hdata
        error
  | notifications => exact hbegin .notifications rfl rfl trivial
  | forceShutdown => exact hbegin .force rfl rfl trivial
  | destroy => exact hbegin (.destroy 0) rfl rfl fun e he => absurd he (Nat.not_lt_zero e)
  | otherOpen fd state i => exact otherOpen_good h state i
  | otherClose fd => exact otherClose_good h
  | run k => exact good_unreal
  | worker i w => exact good_unreal

end SocksProxy.ServerHandlers
