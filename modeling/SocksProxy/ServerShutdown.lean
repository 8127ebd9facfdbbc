import SocksProxy.ServerLocks
import SocksProxy.ServerWork

/-!
What is left when the process ends. selector_destroy unregisters every entry and
lets go of the jobs that were queued; the workers may outlive it. When the last of
them has exited, nothing that belonged to a connection is left, whatever the
connections were doing when the server was stopped.
-/
namespace SocksProxy.ServerShutdown

open Kernel Ledgers ServerState ServerSteps ServerRefs ServerSockets ServerLookups ServerEntries
open ServerPool ServerParts ServerStages ServerRuns ServerOwners ServerLocks ServerWork Runs

variable {s t u : Server} {b : Bottom} {d : Doing} {i : ℕ} {e : Event} {w : DnsWorker}
variable {es : List Event} {k : WorkerStep}

section Destroying

/-- selector_destroy has begun. -/
def Destroying (s : Server) : Prop := ∃ f ∈ s.stack, ofDestroy f = true

/-- The list of jobs stays empty after selector_destroy. -/
def Emptied (s : Server) : Prop := .ended ∈ s.stack → s.jobs = []

/-- selector_destroy returns to main, which calls nothing else. -/
theorem stack_ended (h : Ok s d b) (hended : .ended ∈ s.stack) :
    s.stack = [.ended] ∧ d = .nothing ∧ b = .ended := by
  have hstack := h.ground.stack
  have hallowed := h.allowed
  rw [hstack] at hended ⊢
  cases b <;> cases d <;> simp [Doing.frames, Bottom.frames] at hended ⊢ <;>
    exact absurd hallowed (by simp [Allowed, Bottom.closes, Bottom.serves])

/-- A job for a selector that is gone would be a fault. -/
theorem worker_jobs (hgone : s.selectorGone = true) (ht : dnsWorker s i w k = .ok t) :
    t.jobs = s.jobs := by
  cases k with
  | finish error result =>
    simp only [dnsWorker, workerFinish] at ht
    split at ht
    next =>
      split at ht
      next => cases ht
      next =>
        split at ht
        next => cases ht
        next => split at ht <;> rw [← Except.ok.inj ht] <;> split <;> rfl
    next => cases ht
  | notify queued =>
    simp only [dnsWorker, selectorNotifyBlockDone, hgone, if_true] at ht
    split at ht
    next =>
      split at ht
      next => cases ht
      next =>
        rw [← Except.ok.inj ht]
        rfl
    next => cases ht
  | unlock =>
    simp only [dnsWorker] at ht
    split at ht
    next =>
      split at ht
      next =>
        rw [← Except.ok.inj ht]
        rfl
      next => cases ht
    next => cases ht
  | release =>
    simp only [dnsWorker] at ht
    split at ht
    next =>
      have hrelease : Costs True 0 s (socks5Release s w.socks) := socks5Release_costs
      cases hres : socks5Release s w.socks with
      | error x =>
        rw [hres] at ht
        cases ht
      | ok u =>
        rw [hres] at ht
        rw [← Except.ok.inj ht]
        exact (hrelease.1 u hres).jobs
    next => cases ht
  | exit =>
    simp only [dnsWorker] at ht
    split at ht
    next =>
      rw [← Except.ok.inj ht]
      rfl
    next =>
      rw [← Except.ok.inj ht]
      rfl
    next => cases ht

/-- From the beginning of selector_destroy on. -/
structure Closing (s : Server) : Prop where
  sound : Sound s
  destroying : Destroying s
  emptied : Emptied s

/-- The main thread does nothing else any more. -/
theorem Closing.works (h : Closing s) (hstep : Step s e t) : Works s e t := by
  have hbusy : s.stack ≠ [] := by
    obtain ⟨f, hf, -⟩ := h.destroying
    exact List.ne_nil_of_mem hf
  refine ⟨?_, hstep⟩
  have hstep' : step s e = .ok t := hstep
  cases e with
  | run k => rfl
  | worker i k => rfl
  | _ => simp [step, hbusy] at hstep'

theorem closing_begin (h : Sound s) (hdestroy : Step s .destroy t) : Closing t := by
  have hstep : step s .destroy = .ok t := hdestroy
  simp only [step] at hstep
  split at hstep
  next hidle =>
    obtain rfl := Except.ok.inj hstep
    refine ⟨h.step hdestroy, ⟨.destroy 0, by simp [Server.push], rfl⟩, ?_⟩
    intro hmem
    simp [Server.push, hidle] at hmem
  next => cases hstep

theorem closing_step (h : Closing s) (hstep : Step s e t) : Closing t := by
  obtain ⟨d, b, hok⟩ := h.sound
  have hstep' : step s e = .ok t := hstep
  have hinternal := (h.works hstep).1
  suffices hboth : Destroying t ∧ Emptied t from
    ⟨h.sound.step hstep, hboth.1, hboth.2⟩
  cases e with
  | run k =>
    rw [step] at hstep'
    split at hstep'
    next => cases hstep'
    next f fs hstack =>
      have hended : f ≠ .ended := by
        rintro rfl
        cases hstep'
      have honward := ((runFrame_pays hok hstack hended).1 t hstep').2
      refine ⟨honward.destroying h.destroying, ?_⟩
      intro hmem
      rcases honward.ended hmem with hmem | hjobs
      · have hstack' := (stack_ended hok hmem).1
        rw [hstack] at hstack'
        exact absurd (List.cons.inj hstack').1 hended
      · exact hjobs
  | worker i k =>
    rw [step] at hstep'
    split at hstep'
    next => cases hstep'
    next w hi =>
      obtain ⟨st, hmoved⟩ := dnsWorker_moved hok hi hstep'
      refine ⟨?_, ?_⟩
      · unfold Destroying
        rw [hmoved.stack]
        exact h.destroying
      · intro hmem
        rw [hmoved.stack] at hmem
        have hgone : s.selectorGone = true := by simp [Server.selectorGone, hmem]
        rw [worker_jobs hgone hstep']
        exact h.emptied hmem
  | _ => exact absurd hinternal (by simp [internal])

theorem closing_pays (h : Closing s) (hstep : Step s e t) : work t < work s :=
  works_pays h.sound (h.works hstep)

end Destroying

section NothingLeft

/-- Of the connections nothing is left: no worker, no state, no list of addresses, no
entry, no socket; all that was handed out for them was given back once. -/
structure NothingLeft (s : Server) : Prop where
  workers : ∀ w ∈ s.workers, w.state = .exited
  heap : ∀ a, s.heap a = none
  items : ∀ fd, s.items fd = none
  sockets : ∀ fd sk, s.fds fd = some sk → sk.owner = none
  pool : s.pool = []
  current : s.metrics.currentConnections = 0
  jobs : s.jobs = []
  states : s.books.states.settled.Perm s.books.states.issued
  owners : s.books.owners.settled.Perm s.books.owners.issued
  results : s.books.results.settled.Perm s.books.results.issued
  registrations : s.books.registrations.settled.Perm s.books.registrations.issued

/-- Nobody holds a reference when the workers have exited and the jobs are gone. -/
theorem heap_empty (h : Ok s .nothing .ended) (hjobs : s.jobs = [])
    (hworkers : ∀ w ∈ s.workers, w.state = .exited) (a : ℕ) : s.heap a = none := by
  have hparts := h.ground.parts
  by_contra hsome
  obtain ⟨o, ho⟩ := Option.ne_none_iff_exists'.mp hsome
  have hreleased : o.released = true :=
    released_of_gone h (by simp [Server.selectorGone, h.ground.stack, Doing.frames,
      Bottom.frames]) ho
  have hholders : holders s.workers a = 0 := by
    unfold holders
    rw [List.countP_eq_zero]
    intro w hw
    simp [hworkers w hw, WorkerState.holds]
  have heq := hparts.refs.references_eq a o ho
  have hpos := hparts.refs.references_pos a o ho
  simp [holdings, hreleased, hholders, hjobs, queued] at heq
  omega

theorem nothing_left (h : Ok s .nothing .ended) (hjobs : s.jobs = [])
    (hworkers : ∀ w ∈ s.workers, w.state = .exited) : NothingLeft s := by
  have hparts := h.ground.parts
  have hheap := heap_empty h hjobs hworkers
  have hitems : ∀ fd, s.items fd = none := h.ground.footing
  have hpool : s.pool = [] := by
    rw [List.eq_nil_iff_forall_not_mem]
    intro a ha
    obtain ⟨o, ho, -⟩ := (hparts.pool.mem_iff a).mp ha
    rw [hheap a] at ho
    cases ho
  refine
    { workers := hworkers
      heap := hheap
      items := hitems
      sockets := ?_
      pool := hpool
      current := ?_
      jobs := hjobs
      states := ?_
      owners := ?_
      results := ?_
      registrations := ?_ }
  · intro fd sk hsk
    cases howner : sk.owner with
    | none => rfl
    | some k =>
      obtain ⟨a, o, ho, -⟩ := hparts.sockets.open_stored fd sk k hsk howner (by simp)
      rw [hheap a] at ho
      cases ho
  · rw [hparts.pool.current, hpool]
    rfl
  · refine hparts.refs.states_balanced.settled_perm ?_
    rintro k ⟨a, o, ho, -⟩
    rw [hheap a] at ho
    cases ho
  · refine hparts.refs.owners_balanced.settled_perm ?_
    rintro k ⟨a, o, ho, -⟩
    rw [hheap a] at ho
    cases ho
  · refine hparts.results.held.balanced.settled_perm ?_
    rintro r ⟨a | i, hres⟩
    · simp [resultOf, hheap] at hres
    · obtain ⟨w, hw, hres⟩ := Option.bind_eq_some_iff.mp hres
      rw [hworkers w (List.mem_of_getElem? hw)] at hres
      simp [WorkerState.result] at hres
  · refine hparts.entries.held.balanced.settled_perm ?_
    rintro r ⟨fd, hfd⟩
    simp [registrationOf, hitems] at hfd

/-- When no thread can go on any more, nothing is left. -/
theorem closing_stuck (h : Closing u) (hstuck : ∀ e v, ¬ Goes u e v) : NothingLeft u := by
  have hrest := rest_of_stuck h.sound hstuck
  obtain ⟨d, b, hok⟩ := h.sound
  have hended : .ended ∈ u.stack := by
    rcases hrest.main with hmain | hmain
    · obtain ⟨f, hf, -⟩ := h.destroying
      rw [hmain] at hf
      cases hf
    · rw [hmain]
      exact List.mem_singleton.mpr rfl
  obtain ⟨-, rfl, rfl⟩ := stack_ended hok hended
  exact nothing_left hok (h.emptied hended) hrest.workers

/-- Once main has called selector_destroy, the threads take a bounded number of steps
in whatever order, and when none can go on, the workers have exited and nothing of any
connection is left. -/
theorem shutdown_leaves_nothing (h : Reachable s) (hdestroy : Step s .destroy t)
    (hrun : Run Step t es u) :
    es.length + work u ≤ work t ∧ ((∀ e v, ¬ Goes u e v) → NothingLeft u) := by
  have ht := closing_begin (reachable_ok h) hdestroy
  exact ⟨hrun.length_add_le ht closing_step closing_pays,
    closing_stuck (hrun.invariant ht closing_step)⟩

/-- A client was asking for a host when the server was stopped. -/
theorem shutdown_leaves_nothing_asked : ∃ s t es u, play serverInit (asks 1 5) = .ok s ∧
    s.pool = [1] ∧ Step s .destroy t ∧ Run Step t es u ∧ NothingLeft u := by
  have hasked : ∃ s, play serverInit (asks 1 5) = .ok s ∧ s.stack = [] ∧ s.pool = [1] :=
    ⟨_, rfl, rfl, rfl⟩
  obtain ⟨s, hs, hidle, hpool⟩ := hasked
  have hreach := reachable_play (asks 1 5) hs
  have hdestroy : Step s .destroy (s.push [.destroy 0]) := by
    show step s .destroy = _
    simp only [step, hidle, if_true, begins]
  obtain ⟨es, u, hrun, hstuck⟩ :=
    Run.exists_maximal (closing_begin (reachable_ok hreach) hdestroy)
      closing_step closing_pays
  exact ⟨s, _, es, u, hs, hpool, hdestroy, hrun,
    (shutdown_leaves_nothing hreach hdestroy hrun).2 fun e v hgoes => hstuck e v hgoes.2.2⟩

end NothingLeft

end SocksProxy.ServerShutdown
