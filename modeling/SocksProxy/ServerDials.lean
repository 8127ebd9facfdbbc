import SocksProxy.ServerClosing

/-!
The connection to the origin: register_origin_connect, the addresses that
getaddrinfo has found, the start of a lookup, and the reply to the client.
-/
namespace SocksProxy.ServerDials

open Kernel Request Ledgers ServerState ServerSteps ServerRefs ServerSockets ServerLookups
open ServerEntries ServerPool ServerParts ServerStages ServerClosing
open ConnState (Socks5State FdInterest OP_NOOP OP_READ OP_WRITE)

variable {s t : Server} {b : Bottom} {a fd : ℕ} {o o' : Socks5} {k : Answers}
variable {jobs pending : List BlockingJob}

section Interest

variable (s) (fd : Option ℕ) (i : FdInterest)

@[simp] theorem selectorSetInterest_heap : (selectorSetInterest s fd i).heap = s.heap := by
  cases fd <;> rfl

@[simp] theorem selectorSetInterest_workers :
    (selectorSetInterest s fd i).workers = s.workers := by
  cases fd <;> rfl

@[simp] theorem selectorSetInterest_jobs : (selectorSetInterest s fd i).jobs = s.jobs := by
  cases fd <;> rfl

@[simp] theorem selectorSetInterest_stack : (selectorSetInterest s fd i).stack = s.stack := by
  cases fd <;> rfl

end Interest

/-- The handler is done with `a`, which goes to `o'` and stands. -/
theorem stand_good (h : Ground s b [] [] (some a)) (hb : b.serves = true)
    (hparts : Parts none t s.jobs (b.pending s.jobs) []) (hstack : t.stack = b.frames)
    (hheap : t.heap = Function.update s.heap a (some o')) (hworkers : t.workers = s.workers)
    (hjobs : t.jobs = s.jobs)
    (hstanding : Standing b (flying s.workers (b.pending s.jobs) a) o') : Good (.ok t) := by
  have hcs := Bottom.serves_clearing hb
  have hground : Ground t b [] [] (some a) := by
    apply h.advance (Bottom.closes_of_serves hb) _ hstack h.clearing_nodup _ hworkers hjobs
      (Or.inl hb)
    · rw [hcs]
      exact hparts
    · intro c hca
      rw [hheap, Function.update_of_ne hca]
  refine ⟨.nothing, b, hground.drop (Bottom.closes_of_serves hb) ?_, trivial, ?_⟩
  · intro p hp _
    rw [hheap, Function.update_self, Option.some.injEq] at hp
    rw [← hp, hworkers, hjobs]
    exact ⟨hb, hstanding⟩
  · rintro c ⟨⟩

/-- A registered client has a descriptor. -/
theorem client_fd (h : Parts none s jobs pending []) (ho : s.heap a = some o)
    (hreg : o.clientRegistered = true) : ∃ fd, o.clientFd = some fd := by
  obtain ⟨fd, it, hfd, -⟩ := h.entries.registered a o .client ho hreg
  exact ⟨fd, hfd⟩

/-- An origin that has no descriptor is not registered. -/
theorem origin_unregistered (h : Parts none s jobs pending []) (ho : s.heap a = some o)
    (hfd : o.originFd = none) : o.originRegistered = false := by
  by_contra hreg
  have hreg' : o.originRegistered = true := by simpa using hreg
  obtain ⟨fd, it, hfd', -⟩ := h.entries.registered a o .origin ho hreg'
  exact absurd (hfd.symm.trans hfd') (by simp)

theorem ground_parts {subject : Option ℕ} (h : Ground s b [] [] subject)
    (hb : b.serves = true) : Parts none s s.jobs (b.pending s.jobs) [] := by
  have hparts := h.parts
  rw [Bottom.serves_clearing hb] at hparts
  exact hparts

/-- The connection is closed by its handler. -/
theorem closes_good (h : Ground s b [] [] (some a)) (hb : b.serves = true)
    (ho : s.heap a = some o) (hopen : o.released = false) (hopened : Open o)
    (hidle : b = .cleanup → flying s.workers (b.pending s.jobs) a = 0) :
    Good (.ok (s.push [.connectionClose a])) := by
  obtain ⟨fd, hfd⟩ := client_fd (ground_parts h hb) ho hopened.clientRegistered
  have hstack : (s.push [.connectionClose a]).stack = (Doing.close a).frames ++ b.frames := by
    show [Frame.connectionClose a] ++ s.stack = _
    rw [h.stack]
    rfl
  apply set_good (d := .close a) h (Bottom.closes_of_serves hb) rfl (Bottom.closes_of_serves hb)
    (h.parts.stack _) hstack h.clearing_nodup _ rfl rfl (Or.inl hb) hopen
    ⟨hopened.closing, ⟨fd, hfd⟩, hidle⟩
  show s.heap = _
  rw [← ho, Function.update_eq_self]

/-- The handler notes something down in `a`. -/
theorem set_ground (h : Ground s b [] [] (some a)) (hb : b.serves = true) (ho : s.heap a = some o)
    (htame : Tame o o') (hresult : o'.dnsResult = o.dnsResult)
    (hcancelled : o'.cancelled = o.cancelled) (hclosing : o'.closing = o.closing) :
    Ground (s.set a o') b [] [] (some a) := by
  have hstack : (s.set a o').stack = [] ++ b.frames := h.stack
  apply h.advance (Bottom.closes_of_serves hb) _ hstack h.clearing_nodup _ rfl rfl (Or.inl hb)
  · exact h.parts.set ho htame hresult (Or.inl hcancelled) (fun hopen => hclosing ▸ hopen)
  · intro c hca
    exact Function.update_of_ne hca _ _

/-- The handler is done with `a` when it has set an interest. -/
theorem interest_good (h : Ground s b [] [] (some a)) (hb : b.serves = true)
    (ho : s.heap a = some o) (fd : Option ℕ) (i : FdInterest)
    (hstanding : Standing b (flying s.workers (b.pending s.jobs) a) o) :
    Good (.ok (selectorSetInterest s fd i)) := by
  have hparts := (ground_parts h hb).interest fd i
  have hheap : (selectorSetInterest s fd i).heap = Function.update s.heap a (some o) := by
    rw [selectorSetInterest_heap, ← ho, Function.update_eq_self]
  have hstack : (selectorSetInterest s fd i).stack = b.frames := by
    rw [selectorSetInterest_stack]
    exact h.stack
  exact stand_good h hb hparts hstack hheap (selectorSetInterest_workers s fd i)
    (selectorSetInterest_jobs s fd i) hstanding

theorem connectDone_good (h : Ground s b [] [] (some a)) (hb : b.serves = true)
    (ho : s.heap a = some o) (hopen : o.released = false) (hopened : Open o)
    (hunreg : o.originRegistered = false → o.originFd = none) (status : Status)
    (hwait : 0 < flying s.workers (b.pending s.jobs) a →
      status = .inProgress ∧ o.originFd = none) : Good (connectDone a k status s) := by
  have hset : ∀ st, Ground (s.set a { o with current := st }) b [] [] (some a) :=
    fun st => set_ground h hb ho ⟨rfl, rfl, rfl, rfl, rfl, rfl, rfl⟩ rfl rfl rfl
  have hself : ∀ st, (s.set a { o with current := st }).heap a = some { o with current := st } :=
    fun st => Function.update_self _ _ _
  unfold connectDone
  rw [owned_eq ho hopen]
  by_cases hprogress : status = .inProgress
  · rw [if_pos hprogress]
    apply interest_good (hset .connecting) hb (hself .connecting)
    exact
      { closing := hopened.closing
        cancelled := hopened.cancelled
        clientRegistered := hopened.clientRegistered
        unregistered := fun hreg => Or.inl (hunreg hreg)
        waiting := fun hn => ⟨(hwait hn).2, rfl⟩
        settled := fun hearly => absurd hearly (by simp [early]) }
  · rw [if_neg hprogress]
    have hzero : flying s.workers (b.pending s.jobs) a = 0 := by
      by_contra hn
      exact hprogress (hwait (Nat.pos_of_ne_zero hn)).1
    by_cases hfits : k.fits = true
    · rw [if_pos hfits]
      apply interest_good (hset .requestWrite) hb (hself .requestWrite)
      exact
        { closing := hopened.closing
          cancelled := hopened.cancelled
          clientRegistered := hopened.clientRegistered
          unregistered := fun hreg => Or.inl (hunreg hreg)
          waiting := fun hn => absurd hzero (Nat.ne_of_gt hn)
          settled := fun hearly => absurd hearly (by simp [early]) }
    · rw [if_neg hfits]
      exact closes_good (hset .error) hb (hself .error) hopen
        ⟨hopened.closing, hopened.cancelled, hopened.clientRegistered⟩ fun _ => hzero

/-- What the attempts to reach the origin leave of `o`: it has a registered
descriptor now, or none. -/
structure Kept (o o' : Socks5) : Prop where
  closing : o'.closing = o.closing
  cancelled : o'.cancelled = o.cancelled
  clientRegistered : o'.clientRegistered = o.clientRegistered
  current : o'.current = o.current
  released : o'.released = o.released

structure Reached (jobs pending : List BlockingJob) (s : Server) (a : ℕ) (o : Socks5)
    (status : Status) (t : Server) : Prop where
  parts : Parts none t jobs pending []
  calm : Calm s t
  heap : ∀ c, c ≠ a → t.heap c = s.heap c
  kept : ∃ o', t.heap a = some o' ∧ Kept o o' ∧
    (o'.originRegistered = false → o'.originFd = none) ∧
    ((∃ e, status = .failed e) → o'.originRegistered = false ∧ o'.originFd = none)

theorem dial_reached (h : Parts none s jobs pending []) (ho : s.heap a = some o)
    (hopen : o.released = false) (hnone : o.originFd = none) (d : Dial) :
    registerOriginConnect s a d = .error .unreal ∨
      ∃ status t, registerOriginConnect s a d = .ok (status, t) ∧
        Reached jobs pending s a o status t := by
  have hunreg := origin_unregistered h ho hnone
  rcases h.dial ho hopen hnone hunreg d with herr | ⟨status, t, ht, hparts, hcalm, hdialed⟩
  · exact Or.inl herr
  refine Or.inr ⟨status, t, ht, hparts, hcalm, ?_, ?_⟩
  · intro c hca
    cases hdialed with
    | failed e hheap => rw [hheap]
    | opened fd hstatus hheap => rw [hheap, Function.update_of_ne hca]
  · cases hdialed with
    | failed e hheap =>
      exact ⟨o, hheap ▸ ho, ⟨rfl, rfl, rfl, rfl, rfl⟩, fun _ => hnone, fun _ => ⟨hunreg, hnone⟩⟩
    | opened fd hstatus hheap =>
      refine ⟨{ o with originFd := some fd, originRegistered := true }, ?_,
        ⟨rfl, rfl, rfl, rfl, rfl⟩, fun hreg => absurd hreg (by simp), ?_⟩
      · rw [hheap, Function.update_self]
      · rintro ⟨e, he⟩
        exact absurd he (hstatus e)

/-- The loop of start_resolved_connect, from any address on. -/
theorem resolvedLoop_reached (rest : List AddrInfo) (n : ℕ) (e : Errno) (s : Server) (o : Socks5)
    (h : Parts none s jobs pending []) (ho : s.heap a = some o) (hopen : o.released = false)
    (hnone : o.originFd = none) :
    resolvedLoop a k n e rest s = .error .unreal ∨
      ∃ status t, resolvedLoop a k n e rest s = .ok (status, t) ∧
        Reached jobs pending s a o status t := by
  induction rest generalizing n e s o with
  | nil =>
    refine Or.inr ⟨_, s, rfl, h, ⟨rfl, rfl, rfl⟩, fun _ _ => rfl, o, ho,
      ⟨rfl, rfl, rfl, rfl, rfl⟩, fun _ => hnone, fun _ => ⟨origin_unregistered h ho hnone, hnone⟩⟩
  | cons ai rest ih =>
    let p : Socks5 := { o with dnsNext := rest }
    let u : Server := s.set a p
    have hu : Parts none u jobs pending [] :=
      h.set ho ⟨rfl, rfl, rfl, rfl, rfl, rfl, rfl⟩ rfl (Or.inl rfl) id
    have hup : u.heap a = some p := Function.update_self _ _ _
    have hback : ∀ status t, Reached jobs pending u a p status t →
        Reached jobs pending s a o status t := by
      intro status t hr
      obtain ⟨o', ho', hkept, hrest⟩ := hr.kept
      refine ⟨hr.parts, ⟨hr.calm.workers, hr.calm.jobs, hr.calm.stack⟩, ?_, o', ho',
        ⟨hkept.closing, hkept.cancelled, hkept.clientRegistered, hkept.current, hkept.released⟩,
        hrest⟩
      intro c hca
      rw [hr.heap c hca]
      exact Function.update_of_ne hca _ _
    have hgo : ∀ n e, resolvedLoop a k n e rest u = .error .unreal ∨
        ∃ status t, resolvedLoop a k n e rest u = .ok (status, t) ∧
          Reached jobs pending s a o status t := by
      intro n e
      rcases ih n e u p hu hup hopen hnone with herr | ⟨status, t, ht, hr⟩
      · exact Or.inl herr
      · exact Or.inr ⟨status, t, ht, hback status t hr⟩
    unfold resolvedLoop
    rw [ho]
    dsimp only
    by_cases hstream : ai.stream = true
    · rw [if_pos hstream]
      rcases dial_reached hu hup hopen hnone (k.attempt n) with herr | ⟨status, t, ht, hr⟩
      · rw [show registerOriginConnect (s.set a { o with dnsNext := rest }) a (k.attempt n) =
          .error .unreal from herr]
        exact Or.inl rfl
      · rw [show registerOriginConnect (s.set a { o with dnsNext := rest }) a (k.attempt n) =
          .ok (status, t) from ht]
        cases status with
        | failed e' =>
          -- the next address is tried from what the failed one has left
          obtain ⟨o', ho', hkept, -, hfailed⟩ := hr.kept
          obtain ⟨-, hnone'⟩ := hfailed ⟨e', rfl⟩
          rcases ih (n + 1) e' t o' hr.parts ho' (hkept.released.trans hopen) hnone' with
            herr | ⟨status, v, hv, hr'⟩
          · exact Or.inl herr
          · refine Or.inr ⟨status, v, hv, hback status v ?_⟩
            obtain ⟨q, hq, hkept', hrest⟩ := hr'.kept
            refine ⟨hr'.parts, ⟨hr'.calm.workers.trans hr.calm.workers,
              hr'.calm.jobs.trans hr.calm.jobs, hr'.calm.stack.trans hr.calm.stack⟩, ?_, q, hq,
              ⟨hkept'.closing.trans hkept.closing, hkept'.cancelled.trans hkept.cancelled,
                hkept'.clientRegistered.trans hkept.clientRegistered,
                hkept'.current.trans hkept.current, hkept'.released.trans hkept.released⟩, hrest⟩
            intro c hca
            rw [hr'.heap c hca, hr.heap c hca]
        | ok => exact Or.inr ⟨_, t, rfl, hback _ t hr⟩
        | inProgress => exact Or.inr ⟨_, t, rfl, hback _ t hr⟩
    · rw [if_neg hstream]
      exact hgo n e

theorem startResolvedConnect_reached (h : Parts none s jobs pending []) (ho : s.heap a = some o)
    (hopen : o.released = false) (hnone : o.originFd = none) :
    startResolvedConnect s a o k = .error .unreal ∨
      ∃ status t, startResolvedConnect s a o k = .ok (status, t) ∧
        Reached jobs pending s a o status t := by
  unfold startResolvedConnect
  split
  · exact Or.inr ⟨_, s, rfl, h, ⟨rfl, rfl, rfl⟩, fun _ _ => rfl, o, ho,
      ⟨rfl, rfl, rfl, rfl, rfl⟩, fun _ => hnone, fun _ => ⟨origin_unregistered h ho hnone, hnone⟩⟩
  · exact resolvedLoop_reached _ _ _ s o h ho hopen hnone

theorem Reached.ground {status : Status} (h : Ground s b [] [] (some a)) (hb : b.serves = true)
    (hr : Reached s.jobs (b.pending s.jobs) s a o status t) : Ground t b [] [] (some a) := by
  have hstack : t.stack = [] ++ b.frames := hr.calm.stack.trans h.stack
  apply h.advance (Bottom.closes_of_serves hb) _ hstack h.clearing_nodup hr.heap hr.calm.workers
    hr.calm.jobs (Or.inl hb)
  rw [Bottom.serves_clearing hb]
  exact hr.parts

theorem open_kept (h : Open o) (hkept : Kept o o') : Open o' :=
  ⟨hkept.closing.trans h.closing, hkept.cancelled.trans h.cancelled,
    hkept.clientRegistered.trans h.clientRegistered⟩

/-- What the attempts came to is reported to the client. -/
theorem reached_good {r : Except Halt (Status × Server)} (h : Ground s b [] [] (some a))
    (hb : b.serves = true) (hopen : o.released = false) (hopened : Open o)
    (hzero : flying s.workers (b.pending s.jobs) a = 0)
    (hr : r = .error .unreal ∨ ∃ status t, r = .ok (status, t) ∧
      Reached s.jobs (b.pending s.jobs) s a o status t) :
    Good (r.bind fun r => connectDone a k r.1 r.2) := by
  rcases hr with rfl | ⟨status, t, rfl, hr⟩
  · exact good_unreal
  obtain ⟨o', ho', hkept, hunreg, -⟩ := hr.kept
  have hzero' : flying t.workers (b.pending t.jobs) a = 0 := by
    rw [hr.calm.workers, hr.calm.jobs]
    exact hzero
  exact connectDone_good (hr.ground h hb) hb ho' (hkept.released.trans hopen) (open_kept hopened hkept)
    hunreg status fun hn => absurd hzero' (Nat.ne_of_gt hn)

theorem connectToOrigin_good (h : Ground s b [] [] (some a)) (hb : b.serves = true)
    (ho : s.heap a = some o) (hopen : o.released = false) (hopened : Open o)
    (hnone : o.originFd = none) (hzero : flying s.workers (b.pending s.jobs) a = 0) :
    Good (connectToOrigin s a k) := by
  have hparts := ground_parts h hb
  have hdone : ∀ status, Good (connectDone a k status s) := fun status =>
    connectDone_good h hb ho hopen hopened (fun _ => hnone) status fun hn =>
      absurd hzero (Nat.ne_of_gt hn)
  unfold connectToOrigin
  rw [owned_eq ho hopen]
  split_ifs with hip hdomain hpending hresolved hmemory
  · exact reached_good h hb hopen hopened hzero (dial_reached hparts ho hopen hnone _)
  · exact hdone _
  · exact reached_good h hb hopen hopened hzero (startResolvedConnect_reached hparts ho hopen hnone)
  · exact hdone _
  · rw [not_or, not_not] at hresolved
    have hstack : (s.push [.resolveStart a]).stack =
        (Doing.resolveStart a).frames ++ b.frames := by
      show [Frame.resolveStart a] ++ s.stack = _
      rw [h.stack]
      rfl
    apply set_good (d := .resolveStart a) h (Bottom.closes_of_serves hb) rfl hb (h.parts.stack _)
      hstack h.clearing_nodup _ rfl rfl (Or.inl hb) hopen
      ⟨hopened, origin_unregistered hparts ho hnone, hnone, hresolved.1, hzero⟩
    show s.heap = _
    rw [← ho, Function.update_eq_self]
  · exact hdone _

theorem resolveStart_good (h : Ok s (.resolveStart a) b) :
    Good (resolveStart { s with stack := b.frames } a) := by
  obtain ⟨o, ho, hopen, hopened, hunreg, hnone, hresult, hzero⟩ := h.stage a rfl
  have hb : b.serves = true := h.allowed
  let u : Server := { s with stack := b.frames }
  let o' : Socks5 :=
    { o with dnsPending := true, dnsError := 0, dnsResult := none, dnsNext := [] }
  show Good (resolveStart u a)
  unfold resolveStart
  by_cases hlocked : u.locked a = true
  · rw [if_pos hlocked]
    exact good_unreal
  · rw [if_neg hlocked, owned_eq (s := u) ho hopen]
    have hparts : Parts none (u.set a o') s.jobs (b.pending s.jobs) ([] ++ b.clearing) :=
      (h.ground.parts.stack _).set ho ⟨rfl, rfl, rfl, rfl, rfl, rfl, rfl⟩ hresult.symm
        (Or.inl rfl) id
    exact set_good (d := .resolveSpawn a) h.ground (Bottom.closes_of_serves hb) rfl hb
      (hparts.stack _) rfl h.ground.clearing_nodup rfl rfl rfl (Or.inl hb) hopen
      ⟨⟨hopened.closing, hopened.cancelled, hopened.clientRegistered⟩, hunreg, hnone, rfl, hzero⟩

theorem flying_append (pending : List BlockingJob) (workers : List DnsWorker) (w : DnsWorker)
    (c : ℕ) (hc : w.socks ≠ c) :
    flying (workers ++ [w]) pending c = flying workers pending c := by
  simp [flying, List.countP_append, hc]

theorem resolveSpawn_good (h : Ok s (.resolveSpawn a) b) :
    Good (resolveSpawn { s with stack := b.frames } a k) := by
  obtain ⟨o, ho, hopen, hopened, hunreg, hnone, hresult, hzero⟩ := h.stage a rfl
  have hb : b.serves = true := h.allowed
  let u : Server := { s with stack := b.frames }
  have hground : Ground u b [] [] (some a) := h.ground.restack []
  have hu := ground_parts hground hb
  obtain ⟨fd, hfd⟩ := client_fd hu ho hopened.clientRegistered
  show Good (resolveSpawn u a k)
  unfold resolveSpawn
  rw [owned_eq (s := u) ho hopen]
  split
  next e _ he =>
    obtain rfl := Option.some.inj (he.symm.trans hfd)
    let o' : Socks5 := { o with references := o.references + 1 }
    have hspawned : Ground { u.set a o' with
        workers := u.workers ++
          [⟨a, e, { serial := o.serial, n := u.workers.length }, .resolving⟩] }
        b [] [] (some a) := by
      refine ⟨?_, rfl, h.ground.clearing_nodup, ?_, ?_⟩
      · rw [Bottom.serves_clearing hb]
        exact hu.spawn ho hfd hzero hresult
      · intro c p hp hrel hne
        have hca : c ≠ a := fun heq => hne (heq ▸ rfl)
        have hp' : s.heap c = some p := by
          have hup : Function.update s.heap a (some o') c = some p := hp
          rw [Function.update_of_ne hca] at hup
          exact hup
        have hstanding := h.ground.standing c p hp' hrel hne
        apply hstanding.fewer
        exact Nat.le_of_eq (flying_append _ _ _ c (Ne.symm hca))
      · exact hground.footing.keep (Bottom.closes_of_serves hb) rfl (Or.inl hb)
    have hself : Function.update s.heap a (some o') a = some o' := Function.update_self _ _ _
    exact connectDone_good hspawned hb hself hopen
      ⟨hopened.closing, hopened.cancelled, hopened.clientRegistered⟩ (fun _ => hnone) .inProgress
      fun _ => ⟨rfl, hnone⟩
  next e _ =>
    rw [hu.refused ho]
    have hsame : (u.push [.resolveFailed a e]).heap = Function.update s.heap a (some o) := by
      show s.heap = _
      rw [← ho, Function.update_eq_self]
    exact set_good (d := .resolveFailed a e) h.ground (Bottom.closes_of_serves hb) rfl hb
      (h.ground.parts.stack _) rfl h.ground.clearing_nodup hsame rfl rfl (Or.inl hb) hopen
      ⟨hopened, hunreg, hnone, hresult, hzero⟩
  next _ he => exact absurd (he.symm.trans hfd) (by simp)
  next => exact good_unreal

theorem resolveFailed_good {e : Errno} (h : Ok s (.resolveFailed a e) b) :
    Good (resolveFailed { s with stack := b.frames } a e k) := by
  obtain ⟨o, ho, hopen, hopened, hunreg, hnone, hresult, hzero⟩ := h.stage a rfl
  have hb : b.serves = true := h.allowed
  let u : Server := { s with stack := b.frames }
  let o' : Socks5 := { o with dnsPending := false }
  have hground : Ground u b [] [] (some a) := h.ground.restack []
  show Good (resolveFailed u a e k)
  unfold resolveFailed
  by_cases hlocked : u.locked a = true
  · rw [if_pos hlocked]
    exact good_unreal
  · rw [if_neg hlocked, owned_eq (s := u) ho hopen]
    have hset : Ground (u.set a o') b [] [] (some a) :=
      set_ground hground hb ho ⟨rfl, rfl, rfl, rfl, rfl, rfl, rfl⟩ rfl rfl rfl
    exact connectDone_good hset hb (Function.update_self _ _ _) hopen
      ⟨hopened.closing, hopened.cancelled, hopened.clientRegistered⟩ (fun _ => hnone) _
      fun hn => absurd hzero (Nat.ne_of_gt hn)

theorem originConnectReply_good (h : Ground s b [] [] (some a)) (hb : b.serves = true)
    (ho : s.heap a = some o) (hopen : o.released = false) (hopened : Open o)
    (hunreg : o.originRegistered = false → o.originFd = none)
    (hzero : flying s.workers (b.pending s.jobs) a = 0) : Good (originConnectReply a k s) := by
  have hset : ∀ st, early st = false → ∀ i, Good (.ok
      (selectorSetInterest (s.set a { o with current := st }) o.clientFd i)) := by
    intro st hst i
    have hground : Ground (s.set a { o with current := st }) b [] [] (some a) :=
      set_ground h hb ho ⟨rfl, rfl, rfl, rfl, rfl, rfl, rfl⟩ rfl rfl rfl
    apply interest_good hground hb (Function.update_self _ _ _)
    exact
      { closing := hopened.closing
        cancelled := hopened.cancelled
        clientRegistered := hopened.clientRegistered
        unregistered := fun hreg => Or.inl (hunreg hreg)
        waiting := fun hn => absurd hzero (Nat.ne_of_gt hn)
        settled := fun hearly => absurd (hst.symm.trans hearly) (by simp) }
  unfold originConnectReply
  rw [owned_eq ho hopen]
  split
  · exact hset .requestWrite rfl _
  · exact hset .error rfl _

/-- The origin's socket, which is registered no more, is closed when there is one. -/
theorem originCloseFd_ground (h : Ground s b [] [] (some a)) (hb : b.serves = true)
    (ho : s.heap a = some o) (hopen : o.released = false) (hunreg : o.originRegistered = false) :
    ∃ t, originCloseFd s a = .ok t ∧ Ground t b [] [] (some a) ∧
      t.heap a = some { o with originFd := none } ∧ t.workers = s.workers ∧ t.jobs = s.jobs := by
  have hparts := ground_parts h hb
  unfold originCloseFd
  rw [owned_eq ho hopen]
  split
  next hfd =>
    refine ⟨s, rfl, h, ?_, rfl, rfl⟩
    rw [ho, ← hfd]
  next fd hfd =>
    have hfd' : sideFd .origin o = some fd := hfd
    have hunreg' : sideRegistered .origin o = false := hunreg
    obtain ⟨t, ht, hparts', hheap, -, hcalm⟩ :=
      hparts.close_side ho hopen hfd' hunreg' (Or.inr rfl)
    rw [ht]
    refine ⟨_, rfl, ?_, Function.update_self _ _ _, hcalm.workers, hcalm.jobs⟩
    have hstack : (t.set a { o with originFd := none }).stack = [] ++ b.frames :=
      hcalm.stack.trans h.stack
    apply h.advance (Bottom.closes_of_serves hb) _ hstack h.clearing_nodup _ hcalm.workers
      hcalm.jobs (Or.inl hb)
    · rw [Bottom.serves_clearing hb]
      exact hparts'
    · intro c hca
      show Function.update t.heap a _ c = s.heap c
      rw [Function.update_of_ne hca, hheap]

theorem originDrop_good (h : Ok s (.originDrop a) b) :
    Good (originDrop { s with stack := b.frames } a k) := by
  obtain ⟨o, ho, hopen, hopened, hunreg, hlate, hzero⟩ := h.stage a rfl
  have hb : b.serves = true := h.allowed
  let u : Server := { s with stack := b.frames }
  have hu : Ground u b [] [] (some a) := h.ground.restack []
  obtain ⟨v, hv, hground, hva, hworkers, hjobs⟩ :=
    originCloseFd_ground hu hb ho hopen hunreg
  have hopened' : Open { o with originFd := none } :=
    ⟨hopened.closing, hopened.cancelled, hopened.clientRegistered⟩
  have hzero' : flying v.workers (b.pending v.jobs) a = 0 := by
    rw [hworkers, hjobs]
    exact hzero
  show Good (originDrop u a k)
  unfold originDrop
  rw [hv]
  show Good (v.owned a _)
  rw [owned_eq hva hopen]
  split
  next hnext =>
    rcases startResolvedConnect_reached (ground_parts hground hb) hva hopen rfl with
      herr | ⟨status, t, ht, hr⟩
    · rw [herr]
      exact good_unreal
    · rw [ht]
      obtain ⟨q, hq, hkept, hqunreg, -⟩ := hr.kept
      have ht' := hr.ground hground hb
      have hzero'' : flying t.workers (b.pending t.jobs) a = 0 := by
        rw [hr.calm.workers, hr.calm.jobs]
        exact hzero'
      show Good (if status = .inProgress then .ok t else originConnectReply a k t)
      split
      · -- the connection waits for the next answer in the state it is in
        have hsame : t.heap = Function.update t.heap a (some q) := by
          rw [← hq, Function.update_eq_self]
        apply stand_good ht' hb (ground_parts ht' hb) ht'.stack hsame rfl rfl
        have hq' := open_kept hopened' hkept
        exact
          { closing := hq'.closing
            cancelled := hq'.cancelled
            clientRegistered := hq'.clientRegistered
            unregistered := fun hreg => Or.inl (hqunreg hreg)
            waiting := fun hn => absurd hzero'' (Nat.ne_of_gt hn)
            settled := by
              intro hearly
              rw [hkept.current] at hearly
              exact absurd (hlate.symm.trans hearly) (by simp) }
      · exact originConnectReply_good ht' hb hq (hkept.released.trans hopen)
          (open_kept hopened' hkept) hqunreg hzero''
  next => exact originConnectReply_good hground hb hva hopen hopened' (fun _ => rfl) hzero'

end SocksProxy.ServerDials
