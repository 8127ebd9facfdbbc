import SocksProxy.ServerHandlers

/-!
The steps of the workers. They come between any two calls of the main thread and
leave its stack, the table and the descriptors alone; of a connection they change
what was found for it, its count of references, or nothing.
-/
namespace SocksProxy.ServerWorkers

open Kernel Ledgers ServerState ServerSteps ServerRefs ServerSockets ServerLookups
open ServerEntries ServerPool ServerParts ServerStages ServerClosing ServerDials ServerLoops

variable {s t : Server} {b : Bottom} {d : Doing} {a fd i n m : ℕ} {o p : Socks5}
variable {w : DnsWorker} {st : WorkerState}

/-- `p` is what a worker may have made of `o`, to which `n` lookups were on the way. -/
structure Like (n : ℕ) (o p : Socks5) : Prop where
  closing : p.closing = o.closing
  cancelled : p.cancelled = o.cancelled
  released : p.released = o.released
  current : p.current = o.current
  clientFd : p.clientFd = o.clientFd
  originFd : p.originFd = o.originFd
  clientRegistered : p.clientRegistered = o.clientRegistered
  originRegistered : p.originRegistered = o.originRegistered
  dnsResult : n = 0 → p.dnsResult = o.dnsResult

theorem like_refl (n : ℕ) (o : Socks5) : Like n o o :=
  ⟨rfl, rfl, rfl, rfl, rfl, rfl, rfl, rfl, fun _ => rfl⟩

theorem Like.opened (h : Like n o p) (ho : Open o) : Open p :=
  ⟨h.closing.trans ho.closing, h.cancelled.trans ho.cancelled,
    h.clientRegistered.trans ho.clientRegistered⟩

theorem Like.ending (h : Like n o p) (ho : Ending o) : Ending p :=
  ⟨h.closing.trans ho.closing, h.cancelled.trans ho.cancelled⟩

theorem Like.standing (h : Like n o p) (ho : Standing b n o) (hle : m ≤ n) : Standing b m p :=
  { h.opened ho.toOpen with
    unregistered := by
      rw [h.originRegistered, h.originFd]
      exact ho.unregistered
    waiting := by
      rw [h.originFd, h.current]
      exact fun hm => ho.waiting (Nat.lt_of_lt_of_le hm hle)
    settled := by
      rw [h.originFd, h.current]
      exact ho.settled }

/-- The stage that the main thread has come to does not depend on a worker. -/
theorem Like.stage (h : Like n o p) (hst : d.Stage b n o) (hle : m ≤ n) : d.Stage b m p := by
  have hzero : n = 0 → m = 0 := by
    intro hn
    omega
  cases d with
  | nothing => trivial
  | close a =>
    obtain ⟨hclosing, hfd, hidle⟩ := hst
    exact ⟨h.closing.trans hclosing, h.clientFd.symm ▸ hfd, fun hb => hzero (hidle hb)⟩
  | cancel a =>
    obtain ⟨hclosing, hfd, hidle⟩ := hst
    exact ⟨h.closing.trans hclosing, h.clientFd.symm ▸ hfd, fun hb => hzero (hidle hb)⟩
  | clientClose a => exact ⟨h.ending hst.1, h.clientFd.symm ▸ hst.2⟩
  | reenter a fd | clearClient a fd | clientCloseFd a fd =>
    exact ⟨h.ending hst.1, h.clientRegistered.trans hst.2.1, h.clientFd.trans hst.2.2⟩
  | originClose a =>
    exact ⟨h.ending hst.1, h.clientRegistered.trans hst.2.1, h.clientFd.trans hst.2.2⟩
  | clearOrigin a fd =>
    obtain ⟨hending, hreg, hfd, horigin⟩ := hst
    exact ⟨h.ending hending, h.clientRegistered.trans hreg, h.clientFd.trans hfd,
      h.originRegistered.trans horigin⟩
  | originCloseFd a =>
    obtain ⟨hending, hreg, hfd, horigin⟩ := hst
    exact ⟨h.ending hending, h.clientRegistered.trans hreg, h.clientFd.trans hfd,
      h.originRegistered.trans horigin⟩
  | release a =>
    refine ⟨h.closing.trans hst.closing, h.cancelled.trans hst.cancelled, ?_, ?_⟩
    · intro side
      cases side with
      | client => exact h.clientFd.trans (hst.fds .client)
      | origin => exact h.originFd.trans (hst.fds .origin)
    · intro side
      cases side with
      | client => exact h.clientRegistered.trans (hst.unregistered .client)
      | origin => exact h.originRegistered.trans (hst.unregistered .origin)
  | resolveStart a | resolveSpawn a | resolveFailed a e =>
    obtain ⟨hopened, hreg, hfd, hresult, hn⟩ := hst
    exact ⟨h.opened hopened, h.originRegistered.trans hreg, h.originFd.trans hfd,
      (h.dnsResult hn).trans hresult, hzero hn⟩
  | clearDrop a fd | originDrop a =>
    obtain ⟨hopened, hreg, hlate, hn⟩ := hst
    exact ⟨h.opened hopened, h.originRegistered.trans hreg, h.current.symm ▸ hlate, hzero hn⟩

theorem footing_still {subject : Option ℕ} (h : b.Footing s subject) (hstill : Still s t)
    (hjobs : s.jobs ≠ [] → t.jobs ≠ []) : b.Footing t subject := by
  cases b with
  | idle | notifications | force => trivial
  | cleanup => exact hjobs h
  | forceCheck c =>
    cases subject with
    | none =>
      show c ∉ t.pool
      rw [hstill.pool]
      exact h
    | some e => exact h
  | destroy i =>
    show ∀ e < i, t.items e = none
    rw [hstill.items]
    exact h
  | clearDestroy fd data =>
    show ∀ e < fd, t.items e = none
    rw [hstill.items]
    exact h
  | destroyJobs | ended =>
    show ∀ e, t.items e = none
    rw [hstill.items]
    exact h
  | clearOther fd data =>
    show ∃ sk, t.fds fd = some sk ∧ sk.owner = none
    rw [hstill.fds]
    exact h
  | closeOther fd =>
    show t.items fd = none ∧ ∃ sk, t.fds fd = some sk ∧ sk.owner = none
    rw [hstill.items, hstill.fds]
    exact h

/-- A worker has gone on; the main thread stays where it is. -/
theorem worker_good (h : Ok s d b)
    (hparts : Parts none t t.jobs (b.pending t.jobs) (d.clearing ++ b.clearing))
    (hstill : Still s t) (hjobs : s.jobs ≠ [] → t.jobs ≠ [])
    (hlike : ∀ c q, t.heap c = some q → ∃ p, s.heap c = some p ∧
      Like (flying s.workers (b.pending s.jobs) c) p q)
    (hfewer : ∀ c q, t.heap c = some q →
      flying t.workers (b.pending t.jobs) c ≤ flying s.workers (b.pending s.jobs) c)
    (hlive : ∀ c p, s.heap c = some p → p.released = false → ∃ q, t.heap c = some q) :
    Good (.ok t) := by
  refine ⟨d, b, ⟨hparts, hstill.stack.trans h.ground.stack, h.ground.clearing_nodup, ?_,
    footing_still h.ground.footing hstill hjobs⟩, h.allowed, ?_⟩
  · intro c q hq hopen hne
    obtain ⟨p, hp, hpq⟩ := hlike c q hq
    have hstanding := h.ground.standing c p hp (hpq.released.symm.trans hopen) hne
    exact hpq.standing hstanding (hfewer c q hq)
  · intro c hc
    obtain ⟨p, hp, hopen, hst⟩ := h.stage c hc
    obtain ⟨q, hq⟩ := hlive c p hp hopen
    obtain ⟨p', hp', hpq⟩ := hlike c q hq
    obtain rfl := Option.some.inj (hp.symm.trans hp')
    exact ⟨q, hq, hpq.released.trans hopen, hpq.stage hst (hfewer c q hq)⟩

/-- The worker's own state is all that has changed. -/
theorem move_good (h : Ok s d b) (hi : s.workers[i]? = some w)
    (hholds : st.holds = w.state.holds) (hresult : st.result = w.state.result)
    (hflying : st.flying = false) (hlocks : st.locks = true → w.state.locks = true)
    (hhanded : st ≠ .unlocking true) : Good (.ok (setWorker s i w st)) := by
  have hparts := h.ground.parts.move hi hholds hresult hflying hlocks hhanded
  apply worker_good h hparts ⟨rfl, rfl, rfl, rfl⟩ id
  · intro c q hq
    exact ⟨q, hq, like_refl _ q⟩
  · intro c q _
    have hset := flying_set (b.pending s.jobs) hi st c
    simp only [hflying, Bool.false_eq_true, and_false, if_false] at hset
    show flying (s.workers.set i _) (b.pending s.jobs) c ≤ _
    omega
  · intro c p hp _
    exact ⟨p, hp⟩

theorem finish_good (h : Ok s d b) (hi : s.workers[i]? = some w) (hw : w.state = .resolving)
    (error : ℤ) (result : List AddrInfo) : Good (workerFinish s i w error result) := by
  by_cases hlocked : s.locked w.socks = true
  · unfold workerFinish
    rw [if_pos hlocked]
    exact good_unreal
  obtain ⟨t, o, o', st, ht, hparts, ho, hheap, htame, hclosing, hcancelled, hcurrent, hworkers,
    hjobs, hstill, hst⟩ := h.ground.parts.finish hi hw (by simpa using hlocked) error result
  have hflies : w.state.flying = true := by
    rw [hw]
    rfl
  have hpos := flying_pos (b.pending s.jobs) hi hflies
  rw [ht]
  apply worker_good h _ hstill
  · rw [hjobs]
    exact id
  · intro c q hq
    rw [hheap] at hq
    rcases update_some hq with ⟨rfl, rfl⟩ | ⟨-, hq⟩
    · exact ⟨o, ho, hclosing, hcancelled, htame.released, hcurrent, htame.clientFd,
        htame.originFd, htame.clientRegistered, htame.originRegistered,
        fun hn => absurd hn (Nat.ne_of_gt hpos)⟩
    · exact ⟨q, hq, like_refl _ q⟩
  · intro c q _
    have hset := flying_set (b.pending s.jobs) hi st c
    rw [hworkers, hjobs]
    rcases hst with rfl | hfalse
    · have hnotifying : WorkerState.notifying.flying = true := rfl
      simp only [hflies, hnotifying, and_true] at hset
      omega
    · simp only [hfalse, Bool.false_eq_true, and_false, if_false] at hset
      omega
  · intro c p hp _
    rw [hheap]
    exact ⟨_, some_update hp⟩
  · rw [hjobs]
    exact hparts

theorem draining_iff (h : Ok s d b) : s.draining = true ↔ b = .notifications ∨ b = .cleanup := by
  have hd : Frame.notifications ∉ d.frames := by
    cases d <;> simp [Doing.frames]
  unfold Server.draining
  rw [h.ground.stack, List.contains_iff_mem, List.mem_append, or_iff_right hd]
  cases b <;> simp [Bottom.frames]

theorem selectorGone_iff (h : Ok s d b) :
    s.selectorGone = true ↔ b = .destroyJobs ∨ b = .ended := by
  have hd : Frame.destroyJobs ∉ d.frames := by
    cases d <;> simp [Doing.frames]
  have hd' : Frame.ended ∉ d.frames := by
    cases d <;> simp [Doing.frames]
  unfold Server.selectorGone
  rw [Bool.or_eq_true, List.contains_iff_mem, List.contains_iff_mem, h.ground.stack,
    List.mem_append, List.mem_append, or_iff_right hd, or_iff_right hd']
  cases b <;> simp [Bottom.frames]

/-- When the selector is gone, nobody works on a connection, and none is open. -/
theorem gone_released (h : Ok s d b) (hgone : s.selectorGone = true) {c : ℕ}
    (hp : s.heap c = some p) : p.released = true := by
  have hcases := (selectorGone_iff h).mp hgone
  have hd : d.subject = none := by
    have hallowed := h.allowed
    rcases hcases with rfl | rfl
    all_goals cases d <;> first | rfl | exact absurd hallowed (by
      simp [Allowed, Bottom.serves, Bottom.closes])
  have hground := h.ground
  have hnone : ∀ e, s.items e = none := by
    have hfooting := hground.footing
    rcases hcases with rfl | rfl <;> exact hfooting
  by_contra hrel
  have hopen : p.released = false := by simpa using hrel
  have hstanding := hground.standing c p hp hopen (by simp [hd])
  have hreg : sideRegistered .client p = true := hstanding.clientRegistered
  obtain ⟨fd, it, -, hit, -⟩ := hground.parts.entries.registered c p .client hp hreg
  rw [hnone fd] at hit
  exact absurd hit (by simp)

/-- No worker is inside the section of dns_mutex any more when the selector is gone. -/
theorem no_locks (h : Ok s d b) (hgone : s.selectorGone = true) (hi : s.workers[i]? = some w)
    (hw : w.state = .notifying) : False := by
  obtain ⟨o, ho, -⟩ := h.ground.parts.refs.worker_live i w hi (by rw [hw]; rfl)
  have hcancelled := h.ground.parts.lookups.uncancelled i w o hi (by rw [hw]; rfl) ho
  have hreleased := h.ground.parts.gone _ o ho (gone_released h hgone ho)
  exact absurd (hcancelled.symm.trans hreleased.cancelled) (by simp)

theorem notify_good (h : Ok s d b) (hi : s.workers[i]? = some w) (hw : w.state = .notifying)
    (queued : Bool) : Good (selectorNotifyBlockDone s i w queued) := by
  unfold selectorNotifyBlockDone
  cases queued with
  | false =>
    rw [if_neg (by simp)]
    apply move_good h hi
    · rw [hw]
      rfl
    · rw [hw]
      rfl
    · rfl
    · intro _
      rw [hw]
      rfl
    · simp
  | true =>
    rw [if_pos rfl]
    by_cases hgone : s.selectorGone = true
    · exact absurd (no_locks h hgone hi hw) id
    rw [if_neg hgone]
    by_cases hdraining : s.draining = true
    · rw [if_pos hdraining]
      exact good_unreal
    rw [if_neg hdraining]
    have hpending : ∀ jobs, b.pending jobs = jobs := by
      intro jobs
      rw [draining_iff h, not_or] at hdraining
      cases b <;> first | rfl | exact absurd rfl hdraining.2
    have hparts := h.ground.parts
    rw [hpending] at hparts
    have hnotified := hparts.notify hi hw
    have hflies : w.state.flying = true := by
      rw [hw]
      rfl
    let j : BlockingJob := { fd := w.clientFd, data := w.socks, lookup := w.lookup }
    let t : Server := { setWorker s i w (.unlocking true) with jobs := j :: s.jobs }
    have hstill : Still s t := ⟨rfl, rfl, rfl, rfl⟩
    have hjobs : s.jobs ≠ [] → t.jobs ≠ [] := fun _ => List.cons_ne_nil j s.jobs
    show Good (.ok t)
    apply worker_good h _ hstill hjobs
    · intro c q hq
      exact ⟨q, hq, like_refl _ q⟩
    · intro c q _
      -- the outcome goes from the worker to its job
      have hset := flying_set s.jobs hi (.unlocking true) c
      have hunlocking : (WorkerState.unlocking true).flying = false := rfl
      simp only [hflies, hunlocking, and_true, Bool.false_eq_true, and_false, if_false] at hset
      rw [hpending, hpending]
      show flying (s.workers.set i _) (j :: s.jobs) c ≤ flying s.workers s.jobs c
      have hdata : j.data = w.socks := rfl
      simp only [flying, queued_cons, hdata] at hset ⊢
      omega
    · intro c p hp _
      exact ⟨p, hp⟩
    · rw [hpending]
      exact hnotified

theorem unlock_good {queued : Bool} (h : Ok s d b) (hi : s.workers[i]? = some w)
    (hw : w.state = .unlocking queued) :
    Good (if (s.heap w.socks).isSome then
      .ok (setWorker s i w (if queued then .freeing none else .releasing none))
      else .error .fault) := by
  have hparts := h.ground.parts
  have hlive : ∃ o, s.heap w.socks = some o := by
    cases queued with
    | true =>
      -- its reference is with the job, which is still in the list
      obtain ⟨j, hj, hdata, -⟩ := hparts.lookups.handed i w hi hw
      have hmem : j ∈ s.jobs := by
        cases b <;> first | exact hj | exact List.mem_of_mem_tail hj
      obtain ⟨o, ho, -⟩ := hparts.refs.job_live j hmem
      exact ⟨o, hdata ▸ ho⟩
    | false =>
      obtain ⟨o, ho, -⟩ := hparts.refs.worker_live i w hi (by rw [hw]; rfl)
      exact ⟨o, ho⟩
  obtain ⟨o, ho⟩ := hlive
  rw [if_pos (by rw [ho]; rfl)]
  cases queued with
  | true =>
    rw [if_pos rfl]
    apply move_good h hi
    · rw [hw]
      rfl
    · rw [hw]
      rfl
    · rfl
    · simp [WorkerState.locks]
    · simp
  | false =>
    rw [if_neg (by simp)]
    apply move_good h hi
    · rw [hw]
      rfl
    · rw [hw]
      rfl
    · rfl
    · simp [WorkerState.locks]
    · simp

theorem leave_good {r : Option ℕ} (h : Ok s d b) (hi : s.workers[i]? = some w)
    (hw : w.state = .releasing r) :
    Good ((socks5Release s w.socks).map fun s => setWorker s i w (.freeing r)) := by
  obtain ⟨t, ht, hparts, hreleased, hcalm⟩ := h.ground.parts.leave hi hw
  have hjobs : t.jobs = s.jobs := hcalm.jobs
  have hworkers : t.workers = s.workers.set i { w with state := .freeing r } := hcalm.workers
  have hstill : Still s t := by
    cases hreleased <;> exact ⟨rfl, rfl, rfl, rfl⟩
  rw [ht]
  apply worker_good h _ hstill
  · rw [hjobs]
    exact id
  · intro c q hq
    obtain ⟨p, hp, hpq⟩ := released_from hreleased hq
    refine ⟨p, hp, ?_⟩
    rw [hpq]
    exact ⟨rfl, rfl, rfl, rfl, rfl, rfl, rfl, rfl, fun _ => rfl⟩
  · intro c q _
    have hset := flying_set (b.pending s.jobs) hi (.freeing r) c
    have hfreeing : (WorkerState.freeing r).flying = false := rfl
    simp only [hfreeing, Bool.false_eq_true, and_false, if_false] at hset
    rw [hworkers, hjobs]
    omega
  · intro c p hp hopen
    cases hreleased with
    | last ho hcount howner =>
      have hc : c ≠ w.socks := by
        rintro rfl
        obtain rfl := Option.some.inj (hp.symm.trans ho)
        exact absurd (hopen.symm.trans howner) (by simp)
      refine ⟨p, ?_⟩
      show Function.update s.heap w.socks none c = some p
      rw [Function.update_of_ne hc]
      exact hp
    | held ho hcount => exact ⟨_, some_update hp⟩
  · rw [hjobs]
    exact hparts

theorem exit_good (h : Ok s d b) (hi : s.workers[i]? = some w) : Good (dnsWorker s i w .exit) := by
  rw [dnsWorker]
  split
  next hw =>
    apply move_good h hi
    · rw [hw]
      rfl
    · rw [hw]
      rfl
    · rfl
    · simp [WorkerState.locks]
    · simp
  next r hw =>
    have hparts := h.ground.parts.exit hi hw
    apply worker_good h hparts ⟨rfl, rfl, rfl, rfl⟩ id
    · intro c q hq
      exact ⟨q, hq, like_refl _ q⟩
    · intro c q _
      have hset := flying_set (b.pending s.jobs) hi .exited c
      have hexited : WorkerState.exited.flying = false := rfl
      simp only [hexited, Bool.false_eq_true, and_false, if_false] at hset
      show flying (s.workers.set i _) (b.pending s.jobs) c ≤ _
      omega
    · intro c p hp _
      exact ⟨p, hp⟩
  next => exact good_unreal

theorem dnsWorker_good (h : Ok s d b) (hi : s.workers[i]? = some w) (k : WorkerStep) :
    Good (dnsWorker s i w k) := by
  cases k with
  | finish error result =>
    rw [dnsWorker]
    split
    next hw => exact finish_good h hi hw error result
    next => exact good_unreal
  | notify queued =>
    rw [dnsWorker]
    split
    next hw => exact notify_good h hi hw queued
    next => exact good_unreal
  | unlock =>
    rw [dnsWorker]
    split
    next queued hw => exact unlock_good h hi hw
    next => exact good_unreal
  | release =>
    rw [dnsWorker]
    split
    next r hw => exact leave_good h hi hw
    next => exact good_unreal
  | exit => exact exit_good h hi

end SocksProxy.ServerWorkers
