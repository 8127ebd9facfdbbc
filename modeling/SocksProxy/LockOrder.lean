import Mathlib.Logic.Relation
import SocksProxy.ServerLocks
import SocksProxy.ServerOwners

/-!
The order of the locks. A worker takes dns_mutex and then resolution_mutex, the
main thread the other way round; but while it handles the notifications, the
connection whose dns_mutex it waits for has no worker left that will notify. So
the threads that wait for each other are ranked, and nobody waits in a circle.
-/
namespace SocksProxy.LockOrder

open Kernel Ledgers ServerState ServerSteps ServerRefs ServerSockets ServerLookups ServerEntries
open ServerPool ServerParts ServerStages ServerLoops ServerWorkers ServerRuns ServerCalls
open ServerLocks ServerOwners Runs

variable {s : Server} {b : Bottom} {d : Doing} {a i j : ℕ} {o : Socks5} {w v : DnsWorker}
variable {l l' : Locks}

section Waiting

/-- Where every edge goes down, there is no circle. -/
theorem acyclic_of_rank {α : Type*} {r : α → α → Prop} (rank : α → ℕ)
    (hdown : ∀ x y, r x y → rank y < rank x) (x : α) : ¬ Relation.TransGen r x x := by
  have hlt : ∀ {x y}, Relation.TransGen r x y → rank y < rank x := by
    intro x y h
    induction h with
    | single h => exact hdown _ _ h
    | tail _ h ih => exact Nat.lt_trans (hdown _ _ h) ih
  exact fun h => Nat.lt_irrefl _ (hlt h)

end Waiting

section Threads

inductive Thread
  | main
  | worker (i : ℕ)

inductive Mutex
  | dns (a : ℕ)
  | resolution

def Holds (l : Locks) : Thread → Mutex → Prop
  | .main, .dns a => l.dns = some a
  | .main, .resolution => l.server.draining = true
  | .worker i, .dns a => ∃ w, Inside l i w ∧ w.socks = a
  | .worker i, .resolution => l.notifier = some i

/-- The thread takes the mutex next, or waits for it. -/
def Wants (l : Locks) : Thread → Mutex → Prop
  | .main, .dns a => l.dns = none ∧ l.asks = false ∧ atDns l.server = some a
  | .main, .resolution => l.asks = true
  | .worker i, .dns a =>
    ∃ w, l.server.workers[i]? = some w ∧ w.state = .resolving ∧ i ∉ l.entered ∧ w.socks = a
  | .worker i, .resolution =>
    ∃ w, l.server.workers[i]? = some w ∧ w.state = .notifying ∧ l.notifier ≠ some i

def WaitsFor (l : Locks) (t u : Thread) : Prop := ∃ m, Wants l t m ∧ Holds l u m

/-- Who makes a step of the server. -/
def mover : Event → Thread
  | .worker i _ => .worker i
  | _ => .main

/-- Who makes a step. -/
def actor : LockEvent → Thread
  | .workerLocksDns i => .worker i
  | .workerLocksResolution i => .worker i
  | .goes e => mover e
  | _ => .main

/-- The mutex is destroyed in between: its connection is freed, or selector_destroy
comes to it. -/
def Destroys (l l' : Locks) : Mutex → Prop
  | .dns a => ∃ o, l.server.heap a = some o ∧ o.serial ∈ l'.server.books.states.settled
  | .resolution => l.server.selectorGone = false ∧ l'.server.selectorGone = true

end Threads

section Connections

/-- The connection of a worker that will be inside dns_mutex, or is, is alive. -/
theorem worker_home (h : Ok s d b) (hi : s.workers[i]? = some w)
    (hw : w.state = .resolving ∨ w.state.locks = true) :
    ∃ o, s.heap w.socks = some o ∧ o.serial = w.lookup.serial := by
  have hparts := h.ground.parts
  have hlive : w.state.holds = true → ∃ o, s.heap w.socks = some o ∧ o.serial = w.lookup.serial :=
    hparts.refs.worker_live i w hi
  cases hstate : w.state with
  | resolving | notifying =>
    apply hlive
    rw [hstate]
    rfl
  | unlocking queued =>
    cases queued with
    | true =>
      -- its reference is with the job, which is still in the list
      obtain ⟨j, hj, hdata, hlookup⟩ := hparts.lookups.handed i w hi hstate
      have hmem : j ∈ s.jobs := by
        cases b <;> first | exact hj | exact List.mem_of_mem_tail hj
      obtain ⟨o, ho, hserial⟩ := hparts.refs.job_live j hmem
      exact ⟨o, hdata ▸ ho, hserial.trans (congrArg Lookup.serial hlookup)⟩
    | false =>
      apply hlive
      rw [hstate]
      rfl
  | releasing | freeing | exited =>
    rw [hstate] at hw
    rcases hw with hw | hw <;> cases hw

/-- The job at the head of the list is reported to a connection that stands. -/
theorem job_standing {j : BlockingJob} (h : Ok s .nothing .notifications)
    (hmatch : jobMatches s j = true) (hhandled : jobHandled s j = true) :
    ∃ o, s.heap j.data = some o ∧ o.cancelled = false := by
  have hparts : Parts none s s.jobs s.jobs [] := h.ground.parts
  obtain ⟨it, hit, hdata⟩ := jobMatches_iff.mp hmatch
  obtain ⟨it', hit', hhandler⟩ := jobHandled_iff.mp hhandled
  obtain rfl := Option.some.inj (hit.symm.trans hit')
  have hhandler' : it.handler = handlerOf .client := hhandler
  obtain ⟨o, ho, hreg, -⟩ := hparts.entries.belongs hit List.not_mem_nil hhandler' hdata
  have hopen := registered_open hparts ho hreg
  have hstanding := h.ground.standing _ o ho hopen (by simp [Doing.subject])
  exact ⟨o, ho, hstanding.cancelled⟩

/-- What the main thread takes a dns_mutex for. -/
inductive AtDns (s : Server) (a : ℕ) : Doing → Bottom → Prop
  | reports {j : BlockingJob} {js : List BlockingJob} (hjobs : s.jobs = j :: js)
      (hmatch : jobMatches s j = true) (hhandled : jobHandled s j = true) (hdata : j.data = a) :
      AtDns s a .nothing .notifications
  | forces (hhead : s.pool.head? = some a) : AtDns s a .nothing .force
  | works {d : Doing} {b : Bottom} {o : Socks5} (ho : s.heap a = some o)
      (hsubject : d.subject = some a)
      (hidle : b = .cleanup → flying s.workers (b.pending s.jobs) a = 0) : AtDns s a d b

theorem atDns_cases (h : Ok s d b) (hat : atDns s = some a) : AtDns s a d b := by
  have hstack := h.ground.stack
  have hstage := h.stage
  unfold atDns at hat
  rw [hstack] at hat
  cases d with
  | nothing =>
    cases b with
    | notifications =>
      have hreports : reportsTo s = some a := hat
      unfold reportsTo at hreports
      split at hreports
      next j js hjobs =>
        split at hreports
        next hcase =>
          rw [Bool.and_eq_true] at hcase
          exact .reports hjobs hcase.1 hcase.2 (Option.some.inj hreports)
        next => cases hreports
      next => cases hreports
    | force => exact .forces hat
    | idle | cleanup | forceCheck | destroy | clearDestroy | destroyJobs | ended | clearOther
    | closeOther => cases hat
  | cancel c =>
    obtain rfl := Option.some.inj hat
    obtain ⟨o, ho, -, -, -, hidle⟩ := hstage c rfl
    exact .works ho rfl hidle
  | resolveStart c | resolveFailed c e =>
    obtain rfl := Option.some.inj hat
    obtain ⟨o, ho, -, -, -, -, -, hzero⟩ := hstage c rfl
    exact .works ho rfl fun _ => hzero
  | close | clientClose | reenter | clearClient | clientCloseFd | originClose | clearOrigin
  | originCloseFd | release | resolveSpawn | clearDrop | originDrop => cases hat

/-- The connection whose dns_mutex the main thread takes is alive. -/
theorem dns_live (h : Ok s d b) (hat : atDns s = some a) : ∃ o, s.heap a = some o := by
  cases atDns_cases h hat with
  | reports _ hmatch hhandled hdata =>
    obtain ⟨o, ho, -⟩ := job_standing h hmatch hhandled
    exact ⟨o, hdata ▸ ho⟩
  | forces hhead =>
    obtain ⟨o, ho, -⟩ := (h.ground.parts.pool.mem_iff a).mp (List.mem_of_mem_head? hhead)
    exact ⟨o, ho⟩
  | works ho => exact ⟨_, ho⟩

/-- While the notifications are handled, no worker of the connection whose
dns_mutex the main thread takes has its lookup still before it. -/
theorem landed (h : Ok s d b) (hdraining : s.draining = true) (hat : atDns s = some a)
    (hi : s.workers[i]? = some w) (hsocks : w.socks = a) : w.state.flying = false := by
  by_contra hnot
  have hflying : w.state.flying = true := by simpa using hnot
  have hpos := flying_pos (b.pending s.jobs) hi hflying
  rw [hsocks] at hpos
  cases atDns_cases h hat with
  | reports hjobs hmatch hhandled hdata =>
    -- the job is on its way to the connection, and so there is no other lookup
    obtain ⟨o, ho, hopen⟩ := job_standing h hmatch hhandled
    have hle := h.ground.parts.lookups.flying_le _ o ho hopen
    have hpending : Bottom.notifications.pending s.jobs = s.jobs := rfl
    rw [hdata, hpending, hjobs, flying, queued_cons, if_pos hdata] at hle
    have hworkers := flying_pos [] hi hflying
    have hnothing : queued [] a = 0 := rfl
    rw [hsocks, flying, hnothing] at hworkers
    omega
  | forces => exact absurd ((draining_iff h).mp hdraining) (by simp)
  | works ho hsubject hidle =>
    rcases (draining_iff h).mp hdraining with rfl | rfl
    · -- nothing is done to a connection between two jobs
      have hallowed := h.allowed
      have hnone : d.subject = none := by
        cases d <;> first | rfl | exact absurd hallowed (by
          simp [Allowed, Bottom.serves, Bottom.closes])
      rw [hnone] at hsubject
      cases hsubject
    · exact absurd (hidle rfl) (Nat.ne_of_gt hpos)

end Connections

section Order

/-- How many others may come one after the other that a thread waits for. -/
def Rank (l : Locks) : Thread → ℕ
  | .main =>
    if l.asks then 1
    else if l.dns.isSome || (atDns l.server).isNone then 0
    else if l.server.draining then 1
    else 2
  | .worker i =>
    match l.server.workers[i]? with
    | some w =>
      if w.state = .resolving then if i ∈ l.entered then 0 else 3
      else if w.state = .notifying then
        if l.notifier = some i then 0 else if l.server.draining then 2 else 1
      else 0
    | none => 0

theorem rank_main (hasks : l.asks = false) (hdns : l.dns = none)
    (hat : atDns l.server = some a) :
    Rank l .main = if l.server.draining then 1 else 2 := by
  rw [Rank, hasks, hdns, hat]
  simp

theorem rank_main_le (l : Locks) : Rank l .main ≤ if l.server.draining then 1 else 2 := by
  rw [Rank]
  split
  next => split <;> omega
  next =>
    split
    next => exact Nat.zero_le _
    next => exact Nat.le_refl _

theorem rank_resolving (hi : l.server.workers[i]? = some w) (hw : w.state = .resolving)
    (hmem : i ∉ l.entered) : Rank l (.worker i) = 3 := by
  rw [Rank, hi]
  simp [hw, hmem]

theorem rank_notifying (hi : l.server.workers[i]? = some w) (hw : w.state = .notifying)
    (hnot : l.notifier ≠ some i) :
    Rank l (.worker i) = if l.server.draining then 2 else 1 := by
  rw [Rank, hi]
  simp [hw, hnot]

/-- Who has resolution_mutex waits for nobody. -/
theorem rank_notifier (h : LocksOk l) (hi : l.notifier = some i) : Rank l (.worker i) = 0 := by
  obtain ⟨w, hw, hstate⟩ := h.notifier_notifying i hi
  rw [Rank, hw]
  simp [hstate, hi]

/-- Nor does a worker whose job is in the list, or that has nothing to report. -/
theorem rank_landed (hi : l.server.workers[i]? = some w) (hw : w.state.flying = false) :
    Rank l (.worker i) = 0 := by
  rw [Rank, hi]
  cases hstate : w.state with
  | resolving | notifying =>
    rw [hstate] at hw
    cases hw
  | unlocking | releasing | freeing | exited => simp [hstate]

/-- A worker inside dns_mutex waits for resolution_mutex at most. -/
theorem rank_inside (hin : Inside l i w) :
    Rank l (.worker i) ≤ if l.server.draining then 2 else 1 := by
  obtain ⟨hi, hlocks⟩ := hin
  cases hstate : w.state with
  | resolving =>
    have hmem : i ∈ l.entered := hlocks.resolve_left (by rw [hstate]; simp [WorkerState.locks])
    rw [Rank, hi]
    simp [hstate, hmem]
  | notifying =>
    by_cases hnotifier : l.notifier = some i
    · rw [Rank, hi]
      simp [hstate, hnotifier]
    · rw [rank_notifying hi hstate hnotifier]
  | unlocking | releasing | freeing | exited =>
    rw [rank_landed hi (by rw [hstate]; rfl)]
    exact Nat.zero_le _

theorem waitsFor_rank (h : LocksOk l) (x y : Thread) (hwaits : WaitsFor l x y) :
    Rank l y < Rank l x := by
  obtain ⟨m, hwants, hholds⟩ := hwaits
  obtain ⟨d, b, hok⟩ := reachable_ok h.reachable
  cases x with
  | main =>
    cases m with
    | dns a =>
      obtain ⟨hdns, hasks, hat⟩ := hwants
      rw [rank_main hasks hdns hat]
      cases y with
      | main => exact absurd (hdns.symm.trans hholds) (by simp)
      | worker i =>
        obtain ⟨w, hin, hsocks⟩ := hholds
        by_cases hdraining : l.server.draining = true
        · rw [rank_landed hin.1 (landed hok hdraining hat hin.1 hsocks), if_pos hdraining]
          exact Nat.one_pos
        · have hle := rank_inside hin
          rw [if_neg hdraining] at hle ⊢
          omega
    | resolution =>
      have hasks : l.asks = true := hwants
      have hrank : Rank l .main = 1 := by
        rw [Rank, if_pos hasks]
      rw [hrank]
      cases y with
      | main =>
        -- a thread that asks for it is in the selector
        have hdraining : l.server.draining = true := hholds
        unfold Server.draining at hdraining
        rw [h.asks_idle hasks] at hdraining
        cases hdraining
      | worker i =>
        rw [rank_notifier h hholds]
        exact Nat.one_pos
  | worker i =>
    cases m with
    | dns a =>
      obtain ⟨w, hi, hw, hmem, hsocks⟩ := hwants
      rw [rank_resolving hi hw hmem]
      cases y with
      | main =>
        have hle := rank_main_le l
        split at hle <;> omega
      | worker j =>
        obtain ⟨v, hin, -⟩ := hholds
        have hle := rank_inside hin
        split at hle <;> omega
    | resolution =>
      obtain ⟨w, hi, hw, hnot⟩ := hwants
      rw [rank_notifying hi hw hnot]
      cases y with
      | main =>
        have hdraining : l.server.draining = true := hholds
        have hle := rank_main_le l
        rw [if_pos hdraining] at hle ⊢
        omega
      | worker j =>
        rw [rank_notifier h hholds]
        split <;> omega

end Order

section Mutexes

/-- Each mutex has one holder. -/
theorem holds_alone (h : LocksOk l) {x y : Thread} {m : Mutex} (hx : Holds l x m)
    (hy : Holds l y m) : x = y := by
  cases m with
  | dns a =>
    cases x with
    | main =>
      cases y with
      | main => rfl
      | worker j =>
        obtain ⟨v, hin, hsocks⟩ := hy
        exact absurd hsocks (h.dns_alone a hx j v hin)
    | worker i =>
      obtain ⟨w, hin, hsocks⟩ := hx
      cases y with
      | main => exact absurd hsocks (h.dns_alone a hy i w hin)
      | worker j =>
        obtain ⟨v, hin', hsocks'⟩ := hy
        rw [h.inside_alone i j w v hin hin' (hsocks.trans hsocks'.symm)]
  | resolution =>
    have hone : ∀ i, l.notifier = some i → l.server.draining = true → False := by
      intro i hi hdraining
      exact absurd ((h.notifier_alone i hi).symm.trans hdraining) (by simp)
    cases x with
    | main =>
      cases y with
      | main => rfl
      | worker j => exact absurd hx (hone j hy)
    | worker i =>
      cases y with
      | main => exact absurd hy (hone i hx)
      | worker j => rw [Option.some.inj (hx.symm.trans hy)]

/-- No thread takes a mutex that it has. -/
theorem wants_new (h : LocksOk l) {x : Thread} {m : Mutex} (hwants : Wants l x m) :
    ¬ Holds l x m := by
  intro hholds
  exact Nat.lt_irrefl _ (waitsFor_rank h x x ⟨m, hwants, hholds⟩)

/-- A step with the mutexes is a step of the server, or the server stays as it is. -/
theorem lockStep_step {e : LockEvent} (hstep : LockStep l e l') :
    l'.server = l.server ∨ ∃ x, Step l.server x l'.server ∧ mover x = actor e := by
  have hok : lockStep l e = .ok l' := hstep
  have hgoes : ∀ (x : Event) f, l.goes x f = .ok l' → (∀ l : Locks, (f l).server = l.server) →
      mover x = actor e →
      l'.server = l.server ∨ ∃ x, Step l.server x l'.server ∧ mover x = actor e := by
    intro x f hgoes hf hactor
    obtain ⟨t, ht, rfl⟩ := goes_ok hgoes
    rw [hf]
    exact Or.inr ⟨x, ht, hactor⟩
  have hbegun : ∀ x : Event, (if l.asks = true then .error .unreal else l.goes x id) = .ok l' →
      mover x = actor e →
      l'.server = l.server ∨ ∃ x, Step l.server x l'.server ∧ mover x = actor e := by
    intro x hbegun hactor
    split at hbegun
    next => cases hbegun
    next => exact hgoes x id hbegun (fun _ => rfl) hactor
  cases e with
  | asks =>
    rw [lockStep] at hok
    split at hok
    next =>
      rw [← Except.ok.inj hok]
      exact Or.inl rfl
    next => cases hok
  | mainLocksResolution =>
    rw [lockStep] at hok
    split at hok
    next => exact hgoes _ _ hok (fun _ => rfl) rfl
    next => cases hok
  | mainLocksDns =>
    rw [lockStep] at hok
    split at hok
    next =>
      split at hok
      next =>
        rw [← Except.ok.inj hok]
        exact Or.inl rfl
      next => cases hok
    next => cases hok
  | workerLocksDns i | workerLocksResolution i =>
    rw [lockStep] at hok
    split at hok
    next =>
      split at hok
      next =>
        rw [← Except.ok.inj hok]
        exact Or.inl rfl
      next => cases hok
    next => cases hok
  | goes e =>
    cases e with
    | notifications => cases hok
    | run k =>
      rw [lockStep] at hok
      split at hok
      next => exact hgoes _ _ hok (fun _ => rfl) rfl
      next => cases hok
    | worker i k =>
      cases k with
      | finish error result =>
        rw [lockStep] at hok
        split at hok
        next => exact hgoes _ _ hok (fun _ => rfl) rfl
        next => cases hok
      | notify queued =>
        cases queued with
        | true =>
          rw [lockStep] at hok
          split at hok
          next => exact hgoes _ _ hok (fun _ => rfl) rfl
          next => cases hok
        | false =>
          rw [lockStep] at hok
          split at hok
          next => cases hok
          next => exact hgoes _ id hok (fun _ => rfl) rfl
      | unlock | release | exit => exact hgoes _ id hok (fun _ => rfl) rfl
    | accept | clientRead | clientWrite | originRead | originWrite | forceShutdown | destroy
    | otherOpen | otherClose => exact hbegun _ hok rfl

/-- The other workers are left alone by a step. -/
theorem worker_kept {x : Event} {t : Server} (hok : Ok s d b) (hstep : Step s x t)
    (hother : mover x ≠ .worker i) (hi : s.workers[i]? = some w) : t.workers[i]? = some w := by
  by_cases hx : ∃ j k, x = .worker j k
  · obtain ⟨j, k, rfl⟩ := hx
    have hworker : step s (.worker j k) = .ok t := hstep
    rw [step] at hworker
    split at hworker
    next => cases hworker
    next v hj =>
      obtain ⟨st, hmoved⟩ := dnsWorker_moved hok hj hworker
      have hne : j ≠ i := fun heq => hother (heq ▸ rfl)
      rw [hmoved.workers, set_get? s.workers hj, if_neg hne]
      exact hi
  · obtain ⟨ws, hws, -⟩ := main_workers hstep fun j k heq => hx ⟨j, k, heq⟩
    obtain ⟨hlt, -⟩ := List.getElem?_eq_some_iff.mp hi
    rw [hws, List.getElem?_append_left hlt]
    exact hi

/-- A connection that is alive has not been freed. -/
theorem not_settled (hok : Ok s d b) (ho : s.heap a = some o) :
    o.serial ∉ s.books.states.settled :=
  hok.ground.parts.refs.states_balanced.unsettled o.serial ⟨a, o, ho, rfl⟩

/-- What a worker has in a step that it does not make itself is not destroyed. -/
theorem worker_keeps {x : Event} {m : Mutex} (h : LocksOk l) (hstep : Step l.server x l'.server)
    (hother : mover x ≠ .worker i) (hholds : Holds l (.worker i) m) : ¬ Destroys l l' m := by
  intro hdestroys
  obtain ⟨d, b, hok⟩ := reachable_ok h.reachable
  obtain ⟨d', b', hok'⟩ := reachable_ok (reachable_step h.reachable hstep)
  cases m with
  | dns a =>
    obtain ⟨w, ⟨hi, hin⟩, rfl⟩ := hholds
    obtain ⟨o, ho, hsettled⟩ := hdestroys
    have hstate : w.state = .resolving ∨ w.state.locks = true := by
      rcases hin with hlocks | hmem
      · exact Or.inr hlocks
      · obtain ⟨v, hv, hresolving⟩ := h.entered_resolving i hmem
        obtain rfl := Option.some.inj (hi.symm.trans hv)
        exact Or.inl hresolving
    obtain ⟨p, hp, hserial⟩ := worker_home hok hi hstate
    obtain rfl := Option.some.inj (ho.symm.trans hp)
    obtain ⟨q, hq, hserial'⟩ := worker_home hok' (worker_kept hok hstep hother hi) hstate
    rw [hserial, ← hserial'] at hsettled
    exact not_settled hok' hq hsettled
  | resolution =>
    obtain ⟨w, hi, hw⟩ := h.notifier_notifying i hholds
    exact no_locks hok' hdestroys.2 (worker_kept hok hstep hother hi) hw

/-- Nor is what the main thread has in a step of a worker. -/
theorem main_keeps {k : WorkerStep} {m : Mutex} (h : LocksOk l)
    (hstep : Step l.server (.worker j k) l'.server) (hholds : Holds l .main m) :
    ¬ Destroys l l' m := by
  intro hdestroys
  obtain ⟨d, b, hok⟩ := reachable_ok h.reachable
  obtain ⟨d', b', hok'⟩ := reachable_ok (reachable_step h.reachable hstep)
  have hworker : step l.server (.worker j k) = .ok l'.server := hstep
  rw [step] at hworker
  split at hworker
  next => cases hworker
  next v hj =>
    obtain ⟨st, hmoved⟩ := dnsWorker_moved hok hj hworker
    cases m with
    | dns a =>
      obtain ⟨o, ho, hsettled⟩ := hdestroys
      have hat := (atDns_moved hmoved).trans (h.at_dns a hholds)
      obtain ⟨q, hq⟩ := dns_live hok' hat
      obtain ⟨p, hp, hserial⟩ := hmoved.serials a q hq
      obtain rfl := Option.some.inj (ho.symm.trans hp)
      rw [← hserial] at hsettled
      exact not_settled hok' hq hsettled
    | resolution =>
      obtain ⟨hthere, hgone⟩ := hdestroys
      unfold Server.selectorGone at hthere hgone
      rw [hmoved.stack, hthere] at hgone
      cases hgone

/-- Nothing is destroyed that another thread has. -/
theorem destroys_free {e : LockEvent} {m : Mutex} {x : Thread} (h : LocksOk l)
    (hstep : LockStep l e l') (hdestroys : Destroys l l' m) (hother : x ≠ actor e) :
    ¬ Holds l x m := by
  intro hholds
  rcases lockStep_step hstep with hserver | ⟨y, hy, hactor⟩
  · obtain ⟨d, b, hok⟩ := reachable_ok h.reachable
    cases m with
    | dns a =>
      obtain ⟨o, ho, hsettled⟩ := hdestroys
      rw [hserver] at hsettled
      exact not_settled hok ho hsettled
    | resolution =>
      obtain ⟨hthere, hgone⟩ := hdestroys
      rw [hserver, hthere] at hgone
      cases hgone
  · rw [← hactor] at hother
    cases x with
    | worker i => exact worker_keeps h hy (Ne.symm hother) hholds hdestroys
    | main =>
      cases y with
      | worker j k => exact main_keeps h hy hholds hdestroys
      | accept | clientRead | clientWrite | originRead | originWrite | notifications
      | forceShutdown | destroy | otherOpen | otherClose | run => exact absurd rfl hother

end Mutexes

section Safety

/-- In every state that the threads can reach, each mutex has one holder, nobody
waits in a circle or for a mutex of its own, and no step destroys a mutex that
another thread has. -/
theorem locks_in_order (h : LocksReachable l) :
    (∀ t u m, Holds l t m → Holds l u m → t = u) ∧
    (∀ t, ¬ Relation.TransGen (WaitsFor l) t t) ∧
    (∀ t m, Wants l t m → ¬ Holds l t m) ∧
    ∀ e l', LockStep l e l' → ∀ m, Destroys l l' m → ∀ t, t ≠ actor e → ¬ Holds l t m := by
  have hok := locks_ok h
  refine ⟨?_, ?_, ?_, ?_⟩
  · exact fun t u m ht hu => holds_alone hok ht hu
  · exact acyclic_of_rank (Rank l) (waitsFor_rank hok)
  · exact fun t m hwants => wants_new hok hwants
  · exact fun e l' hstep m hdestroys t hother => destroys_free hok hstep hdestroys hother

/-- A client asks for a host, its worker has queued the job and not yet unlocked,
and the main thread comes to the job. -/
def crossing : List LockEvent :=
  ((asks 1 5).take 6).map .goes ++
    [.mainLocksDns, .goes (.run plain), .goes (.run plain), .workerLocksDns 0,
      .goes (.worker 0 (.finish 0 [])), .workerLocksResolution 0,
      .goes (.worker 0 (.notify true)), .asks, .mainLocksResolution]

theorem locks_in_order_crossing : ∃ l, crossing.foldlM lockStep locksInit = .ok l ∧
    Holds l .main .resolution ∧ WaitsFor l .main (.worker 0) ∧
    ¬ Relation.TransGen (WaitsFor l) .main .main :=
  ⟨_, rfl, rfl, ⟨.dns 1, ⟨rfl, rfl, rfl⟩, _, ⟨rfl, Or.inl rfl⟩, rfl⟩,
    (locks_in_order ⟨crossing, Run.of_foldlM_ok id rfl⟩).2.1 .main⟩

end Safety

end SocksProxy.LockOrder
