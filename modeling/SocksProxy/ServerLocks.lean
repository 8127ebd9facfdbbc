import SocksProxy.ServerCalls
import SocksProxy.ServerRuns

/-!
The locks of the server. What is one step of the server is here several: a thread
takes a mutex, does what it does inside, and lets go of it, and the others go on
in between. The main thread is inside resolution_mutex as long as it handles the
notifications, and a worker is inside dns_mutex from its first step after
getaddrinfo until it unlocks.
-/
namespace SocksProxy.ServerLocks

open Kernel Ledgers ServerState ServerSteps ServerRefs ServerSockets ServerLookups ServerEntries
open ServerPool ServerParts ServerStages ServerLoops ServerWorkers ServerRuns ServerCalls Runs

variable {s t : Server} {b : Bottom} {d : Doing} {a i j : ℕ} {o : Socks5} {w v : DnsWorker}
variable {st st' : WorkerState} {k : WorkerStep}

section Machine

/-- The connection that socks5_handle_block_done is called for with the next job. -/
def reportsTo (s : Server) : Option ℕ :=
  match s.jobs with
  | j :: _ => if jobMatches s j && jobHandled s j then some j.data else none
  | [] => none

/-- The connection whose dns_mutex the main thread takes in its next step. -/
def atDns (s : Server) : Option ℕ :=
  match s.stack with
  | .cancel a :: _ => some a
  | .resolveStart a :: _ => some a
  | .resolveFailed a _ :: _ => some a
  | .force :: _ => s.pool.head?
  | .notifications :: _ => reportsTo s
  | _ => none

/-- The server with its mutexes: the dns_mutex that the main thread has, whether it
is about to take resolution_mutex, the workers that have taken dns_mutex and done
nothing else yet, and the one that has resolution_mutex. -/
structure Locks where
  server : Server
  dns : Option ℕ
  asks : Bool
  entered : List ℕ
  notifier : Option ℕ

def locksInit : Locks where
  server := serverInit
  dns := none
  asks := false
  entered := []
  notifier := none

/-- A worker has the dns_mutex of `a`. -/
def Locks.inside (l : Locks) (a : ℕ) : Bool :=
  l.server.locked a ||
    l.entered.any fun i => l.server.workers[i]?.any fun w => w.socks = a

/-- A mutex is taken, or the threads go on with what they have. handle_block_notifications
is called with `asks`. -/
inductive LockEvent
  | asks
  | mainLocksResolution
  | mainLocksDns
  | workerLocksDns (i : ℕ)
  | workerLocksResolution (i : ℕ)
  | goes (e : Event)

/-- The step `e` of the server, and the mutexes after it. -/
def Locks.goes (l : Locks) (e : Event) (f : Locks → Locks) : Except Halt Locks :=
  (step l.server e).map fun s => f { l with server := s }

def lockStep (l : Locks) : LockEvent → Except Halt Locks
  | .asks =>
    if l.server.stack = [] ∧ l.asks = false then .ok { l with asks := true }
    else .error .unreal
  | .mainLocksResolution =>
    if l.asks ∧ l.notifier = none then l.goes .notifications fun l => { l with asks := false }
    else .error .unreal
  | .mainLocksDns =>
    match atDns l.server with
    | some a =>
      if l.dns = none ∧ l.inside a = false then .ok { l with dns := some a }
      else .error .unreal
    | none => .error .unreal
  | .workerLocksDns i =>
    match l.server.workers[i]? with
    | some w =>
      if w.state = .resolving ∧ l.dns ≠ some w.socks ∧ l.inside w.socks = false then
        .ok { l with entered := i :: l.entered }
      else .error .unreal
    | none => .error .unreal
  | .workerLocksResolution i =>
    match l.server.workers[i]? with
    | some w =>
      if w.state = .notifying ∧ l.notifier = none ∧ l.server.draining = false then
        .ok { l with notifier := some i }
      else .error .unreal
    | none => .error .unreal
  | .goes e =>
    match e with
    | .notifications => .error .unreal
    | .run k =>
      -- inside dns_mutex when the next step is, which ends with the unlock
      if l.dns = atDns l.server then l.goes (.run k) fun l => { l with dns := none }
      else .error .unreal
    | .worker i k =>
      match k with
      | .finish error result =>
        if i ∈ l.entered then
          l.goes (.worker i (.finish error result)) fun l =>
            { l with entered := l.entered.filter (· ≠ i) }
        else .error .unreal
      | .notify true =>
        if l.notifier = some i then
          l.goes (.worker i (.notify true)) fun l => { l with notifier := none }
        else .error .unreal
      | .notify false =>
        if l.notifier = some i then .error .unreal
        else l.goes (.worker i (.notify false)) id
      | k => l.goes (.worker i k) id
    | e => if l.asks then .error .unreal else l.goes e id

def LockStep (l : Locks) (e : LockEvent) (l' : Locks) : Prop := lockStep l e = .ok l'

/-- The states that some order of events leads to. -/
def LocksReachable (l : Locks) : Prop := ∃ es, Run LockStep locksInit es l

end Machine

section Moves

/-- The step `k` is what a worker does that is at `st`. -/
def nextStep : WorkerState → WorkerStep → Bool
  | .resolving, .finish _ _ => true
  | .notifying, .notify _ => true
  | .unlocking _, .unlock => true
  | .releasing _, .release => true
  | .freeing _, .exit => true
  | _, _ => false

theorem finish_of_resolving (h : nextStep .resolving k = true) :
    ∃ error l, k = .finish error l := by
  cases k with
  | finish error l => exact ⟨error, l, rfl⟩
  | notify _ | unlock | release | exit => cases h

theorem notify_of_notifying (h : nextStep .notifying k = true) : ∃ queued, k = .notify queued := by
  cases k with
  | notify queued => exact ⟨queued, rfl⟩
  | finish _ _ | unlock | release | exit => cases h

/-- The worker `i` has made its step `k` and is at `st`. -/
structure Moved (s t : Server) (i : ℕ) (w : DnsWorker) (k : WorkerStep) (st : WorkerState) :
    Prop where
  next : nextStep w.state k = true
  workers : t.workers = s.workers.set i { w with state := st }
  locks : st.locks = true → w.state = .resolving ∨ w.state.locks = true
  stack : t.stack = s.stack
  items : t.items = s.items
  pool : t.pool = s.pool
  jobs : t.jobs = s.jobs ∨ s.draining = false
  serials : ∀ c q, t.heap c = some q → ∃ p, s.heap c = some p ∧ q.serial = p.serial

/-- Only the worker's own state changes. -/
theorem setWorker_moved (hnext : nextStep w.state k = true)
    (hlocks : st.locks = true → w.state.locks = true) : Moved s (setWorker s i w st) i w k st where
  next := hnext
  workers := rfl
  locks := fun hst => Or.inr (hlocks hst)
  stack := rfl
  items := rfl
  pool := rfl
  jobs := Or.inl rfl
  serials := fun _ q hq => ⟨q, hq, rfl⟩

theorem finish_moved {error : ℤ} {l : List AddrInfo} (h : Ok s d b) (hi : s.workers[i]? = some w)
    (hw : w.state = .resolving) (hstep : workerFinish s i w error l = .ok t) :
    ∃ st, Moved s t i w (.finish error l) st := by
  have hfree : s.locked w.socks = false := by
    cases hlocked : s.locked w.socks with
    | false => rfl
    | true =>
      rw [workerFinish, if_pos hlocked] at hstep
      cases hstep
  obtain ⟨u, o, o', st, hu, -, ho, hheap, htame, -, -, -, hworkers, hjobs, hstill, -⟩ :=
    h.ground.parts.finish hi hw hfree error l
  obtain rfl := Except.ok.inj (hstep.symm.trans hu)
  refine ⟨st, ?_, hworkers, fun _ => Or.inl hw, hstill.stack, hstill.items, hstill.pool,
    Or.inl hjobs, ?_⟩
  · rw [hw]
    rfl
  · intro c q hq
    rw [hheap] at hq
    rcases update_some hq with ⟨rfl, rfl⟩ | ⟨-, hq⟩
    · exact ⟨o, ho, htame.serial⟩
    · exact ⟨q, hq, rfl⟩

theorem leave_moved {r : Option ℕ} (h : Ok s d b) (hi : s.workers[i]? = some w)
    (hw : w.state = .releasing r)
    (hstep : (socks5Release s w.socks).map (fun s => setWorker s i w (.freeing r)) = .ok t) :
    Moved s t i w .release (.freeing r) := by
  obtain ⟨u, hu, -, hreleased, hcalm⟩ := h.ground.parts.leave hi hw
  obtain rfl := Except.ok.inj (hstep.symm.trans hu)
  have hstill : Still s t := by
    cases hreleased <;> exact ⟨rfl, rfl, rfl, rfl⟩
  refine ⟨?_, hcalm.workers, by simp [WorkerState.locks], hstill.stack, hstill.items, hstill.pool,
    Or.inl hcalm.jobs, ?_⟩
  · rw [hw]
    rfl
  · intro c q hq
    obtain ⟨p, hp, hpq⟩ := released_from hreleased hq
    refine ⟨p, hp, ?_⟩
    rw [hpq]

/-- What one step of a worker does. -/
theorem dnsWorker_moved (h : Ok s d b) (hi : s.workers[i]? = some w)
    (hstep : dnsWorker s i w k = .ok t) : ∃ st, Moved s t i w k st := by
  cases k with
  | finish error l =>
    rw [dnsWorker] at hstep
    split at hstep
    next hw => exact finish_moved h hi hw hstep
    next => cases hstep
  | notify queued =>
    rw [dnsWorker] at hstep
    split at hstep
    next hw =>
      have hlocks : ∀ queued, (WorkerState.unlocking queued).locks = true →
          w.state.locks = true := by
        intro _ _
        rw [hw]
        rfl
      refine ⟨.unlocking queued, ?_⟩
      cases queued with
      | false =>
        rw [← Except.ok.inj hstep]
        exact setWorker_moved (by rw [hw]; rfl) (hlocks false)
      | true =>
        rw [selectorNotifyBlockDone, if_pos rfl] at hstep
        split at hstep
        next => cases hstep
        next =>
          split at hstep
          next => cases hstep
          next hdraining =>
            have hmoved : Moved s (setWorker s i w (.unlocking true)) i w (.notify true) _ :=
              setWorker_moved (by rw [hw]; rfl) (hlocks true)
            rw [← Except.ok.inj hstep]
            exact { hmoved with jobs := Or.inr (by simpa using hdraining) }
    next => cases hstep
  | unlock =>
    rw [dnsWorker] at hstep
    split at hstep
    next queued hw =>
      split at hstep
      next =>
        rw [← Except.ok.inj hstep]
        refine ⟨_, setWorker_moved (by rw [hw]; rfl) ?_⟩
        cases queued <;> simp [WorkerState.locks]
      next => cases hstep
    next => cases hstep
  | release =>
    rw [dnsWorker] at hstep
    split at hstep
    next r hw => exact ⟨_, leave_moved h hi hw hstep⟩
    next => cases hstep
  | exit =>
    rw [dnsWorker] at hstep
    split at hstep
    next hw =>
      rw [← Except.ok.inj hstep]
      exact ⟨.exited, setWorker_moved (by rw [hw]; rfl) (by simp [WorkerState.locks])⟩
    next r hw =>
      have hmoved : Moved s (setWorker s i w .exited) i w .exit .exited :=
        setWorker_moved (by rw [hw]; rfl) (by simp [WorkerState.locks])
      rw [← Except.ok.inj hstep]
      exact ⟨.exited, { hmoved with }⟩
    next => cases hstep

end Moves

section Invariant

/-- The worker `i` has the dns_mutex of its connection. -/
def Inside (l : Locks) (i : ℕ) (w : DnsWorker) : Prop :=
  l.server.workers[i]? = some w ∧ (w.state.locks = true ∨ i ∈ l.entered)

structure LocksOk (l : Locks) : Prop where
  reachable : Reachable l.server
  at_dns : ∀ a, l.dns = some a → atDns l.server = some a
  asks_idle : l.asks = true → l.server.stack = []
  entered_resolving : ∀ i ∈ l.entered, ∃ w, l.server.workers[i]? = some w ∧ w.state = .resolving
  notifier_notifying : ∀ i, l.notifier = some i →
    ∃ w, l.server.workers[i]? = some w ∧ w.state = .notifying
  notifier_alone : ∀ i, l.notifier = some i → l.server.draining = false
  dns_alone : ∀ a, l.dns = some a → ∀ i w, Inside l i w → w.socks ≠ a
  inside_alone : ∀ i j w v, Inside l i w → Inside l j v → w.socks = v.socks → i = j

variable {l l' : Locks}

theorem inside_iff (l : Locks) (a : ℕ) :
    l.inside a = true ↔ ∃ i w, Inside l i w ∧ w.socks = a := by
  unfold Locks.inside Server.locked
  rw [Bool.or_eq_true, List.any_eq_true, List.any_eq_true]
  constructor
  · rintro (⟨w, hw, hlocks⟩ | ⟨i, hi, hentered⟩)
    · obtain ⟨i, hi⟩ := List.getElem?_of_mem hw
      rw [Bool.and_eq_true, decide_eq_true_eq] at hlocks
      exact ⟨i, w, ⟨hi, Or.inl hlocks.2⟩, hlocks.1⟩
    · obtain ⟨w, hw, hsocks⟩ := (Option.any_eq_true _ _).mp hentered
      exact ⟨i, w, ⟨hw, Or.inr hi⟩, by simpa using hsocks⟩
  · rintro ⟨i, w, ⟨hi, hlocks | hentered⟩, rfl⟩
    · exact Or.inl ⟨w, List.mem_of_getElem? hi, by simp [hlocks]⟩
    · exact Or.inr ⟨i, hentered, by simp [hi]⟩

theorem not_inside (hfree : l.inside a = false) (hin : Inside l i w) : w.socks ≠ a := by
  intro hsocks
  have htrue := (inside_iff l a).mpr ⟨i, w, hin, hsocks⟩
  exact absurd (htrue.symm.trans hfree) (by simp)

theorem init_locks : LocksOk locksInit where
  reachable := ⟨[], .nil⟩
  at_dns := by simp [locksInit]
  asks_idle := by simp [locksInit]
  entered_resolving := by simp [locksInit]
  notifier_notifying := by simp [locksInit]
  notifier_alone := by simp [locksInit]
  dns_alone := by simp [locksInit]
  inside_alone := by simp [locksInit, Inside, serverInit]

/-- The idle main thread is at no dns_mutex. -/
theorem atDns_idle (h : s.stack = []) : atDns s = none := by
  unfold atDns
  rw [h]

theorem LocksOk.dns_idle (h : LocksOk l) (hidle : l.server.stack = []) : l.dns = none := by
  cases hdns : l.dns with
  | none => rfl
  | some a =>
    have hat := h.at_dns a hdns
    rw [atDns_idle hidle] at hat
    cases hat

/-- The main thread has gone on, and let go of dns_mutex. -/
theorem LocksOk.main {dns : Option ℕ} {asks : Bool} (h : LocksOk l) (hreach : Reachable t)
    (hdns : dns = none) (hasks : asks = true → t.stack = [])
    (hworkers : ∃ ws, t.workers = l.server.workers ++ ws ∧ ∀ w ∈ ws, w.state = .resolving)
    (hdraining : ∀ i, l.notifier = some i → t.draining = false) :
    LocksOk ⟨t, dns, asks, l.entered, l.notifier⟩ := by
  subst hdns
  obtain ⟨ws, hws, hnew⟩ := hworkers
  have hkept : ∀ (i : ℕ) w, l.server.workers[i]? = some w → t.workers[i]? = some w := by
    intro i w hi
    obtain ⟨hlt, -⟩ := List.getElem?_eq_some_iff.mp hi
    rw [hws, List.getElem?_append_left hlt]
    exact hi
  -- who has just been started is in getaddrinfo
  have hinside : ∀ i w, Inside ⟨t, none, asks, l.entered, l.notifier⟩ i w → Inside l i w := by
    rintro i w ⟨hi, hlocks | hmem⟩
    · refine ⟨?_, Or.inl hlocks⟩
      have hi' : t.workers[i]? = some w := hi
      by_cases hlt : i < l.server.workers.length
      · rw [hws, List.getElem?_append_left hlt] at hi'
        exact hi'
      · rw [hws, List.getElem?_append_right (Nat.not_lt.mp hlt)] at hi'
        rw [hnew w (List.mem_of_getElem? hi')] at hlocks
        cases hlocks
    · obtain ⟨v, hv, -⟩ := h.entered_resolving i hmem
      obtain rfl := Option.some.inj ((hkept i v hv).symm.trans hi)
      exact ⟨hv, Or.inr hmem⟩
  refine ⟨hreach, by simp, hasks, ?_, ?_, hdraining, by simp, ?_⟩
  · intro i hi
    obtain ⟨w, hw, hstate⟩ := h.entered_resolving i hi
    exact ⟨w, hkept i w hw, hstate⟩
  · intro i hi
    obtain ⟨w, hw, hstate⟩ := h.notifier_notifying i hi
    exact ⟨w, hkept i w hw, hstate⟩
  · exact fun i j w v hi hj => h.inside_alone i j w v (hinside i w hi) (hinside j v hj)

/-- A worker changes nothing that the next call of the main thread depends on. -/
theorem atDns_moved (h : Moved s t i w k st) : atDns t = atDns s := by
  have hmatches : ∀ j, jobMatches t j = jobMatches s j := by
    intro j
    unfold jobMatches
    rw [h.items]
  have hhandled : ∀ j, jobHandled t j = jobHandled s j := by
    intro j
    unfold jobHandled
    rw [h.items]
  rcases h.jobs with hjobs | hdraining
  · simp only [atDns, reportsTo, h.stack, h.pool, hjobs, hmatches, hhandled]
  · -- no notifications are handled, and their jobs do not matter
    unfold Server.draining at hdraining
    unfold atDns
    rw [h.stack, h.pool]
    split
    next => rfl
    next => rfl
    next => rfl
    next => rfl
    next heq =>
      rw [heq] at hdraining
      exact absurd hdraining (by simp)
    next => rfl

/-- The worker `i` has gone on, and has not just taken a mutex. -/
theorem LocksOk.worker {entered : List ℕ} {notifier : Option ℕ} (h : LocksOk l)
    (hreach : Reachable t) (hi : l.server.workers[i]? = some w)
    (hmoved : Moved l.server t i w k st)
    (hentered : ∀ j ∈ entered, j ∈ l.entered ∧ j ≠ i)
    (hnotifier : ∀ j, notifier = some j → l.notifier = some j ∧ j ≠ i)
    (hlocks : st.locks = true → Inside l i w) :
    LocksOk ⟨t, l.dns, l.asks, entered, notifier⟩ := by
  have hset := set_get? l.server.workers hi { w with state := st }
  rw [← hmoved.workers] at hset
  have hother : ∀ (j : ℕ) v, j ≠ i → l.server.workers[j]? = some v →
      t.workers[j]? = some v := by
    intro j v hj hv
    rw [hset, if_neg (Ne.symm hj)]
    exact hv
  -- who is inside was inside before, for the same connection
  have hinside : ∀ j v, Inside ⟨t, l.dns, l.asks, entered, notifier⟩ j v →
      ∃ u, Inside l j u ∧ u.socks = v.socks := by
    rintro j v ⟨hj, hin⟩
    have hj' : t.workers[j]? = some v := hj
    rw [hset] at hj'
    by_cases hij : i = j
    · subst hij
      rw [if_pos rfl] at hj'
      obtain rfl := Option.some.inj hj'
      rcases hin with hst | hmem
      · exact ⟨w, hlocks hst, rfl⟩
      · exact absurd rfl (hentered i hmem).2
    · rw [if_neg hij] at hj'
      exact ⟨v, ⟨hj', hin.imp_right fun hmem => (hentered j hmem).1⟩, rfl⟩
  refine ⟨hreach, ?_, ?_, ?_, ?_, ?_, ?_, ?_⟩
  · intro a ha
    exact (atDns_moved hmoved).trans (h.at_dns a ha)
  · intro hasks
    exact hmoved.stack.trans (h.asks_idle hasks)
  · intro j hj
    obtain ⟨hmem, hne⟩ := hentered j hj
    obtain ⟨v, hv, hstate⟩ := h.entered_resolving j hmem
    exact ⟨v, hother j v hne hv, hstate⟩
  · intro j hj
    obtain ⟨hbefore, hne⟩ := hnotifier j hj
    obtain ⟨v, hv, hstate⟩ := h.notifier_notifying j hbefore
    exact ⟨v, hother j v hne hv, hstate⟩
  · intro j hj
    have hdraining := h.notifier_alone j (hnotifier j hj).1
    unfold Server.draining at hdraining ⊢
    rw [hmoved.stack]
    exact hdraining
  · intro a ha j v hin
    obtain ⟨u, hu, hsocks⟩ := hinside j v hin
    exact hsocks ▸ h.dns_alone a ha j u hu
  · intro j m v u hv hu heq
    obtain ⟨v', hv', hsocks⟩ := hinside j v hv
    obtain ⟨u', hu', hsocks'⟩ := hinside m u hu
    exact h.inside_alone j m v' u' hv' hu' (hsocks.trans (heq.trans hsocks'.symm))

end Invariant

section Steps

variable {l l' : Locks} {e : Event} {f : Locks → Locks}

theorem goes_ok (h : l.goes e f = .ok l') :
    ∃ t, Step l.server e t ∧ l' = f { l with server := t } := by
  unfold Locks.goes at h
  cases hstep : step l.server e with
  | error x =>
    rw [hstep] at h
    cases h
  | ok t =>
    rw [hstep] at h
    exact ⟨t, hstep, (Except.ok.inj h).symm⟩

theorem notifications_locks (h : LocksOk l) (hasks : l.asks = true) (hnone : l.notifier = none)
    (hgoes : l.goes .notifications (fun l => { l with asks := false }) = .ok l') : LocksOk l' := by
  obtain ⟨t, hstep, rfl⟩ := goes_ok hgoes
  have hidle := h.asks_idle hasks
  have ht : t = l.server.push [.notifications] := by
    have hbegins : step l.server .notifications = .ok (l.server.push [.notifications]) :=
      if_pos hidle
    exact Except.ok.inj (hstep.symm.trans hbegins)
  apply h.main (reachable_step h.reachable hstep) (h.dns_idle hidle)
  · simp
  · rw [ht]
    exact ⟨[], (List.append_nil _).symm, by simp⟩
  · intro i hi
    exact absurd (hi.symm.trans hnone) (by simp)

/-- Calls on top of the stack do not handle notifications. -/
theorem extends_draining (h : Extends s t) (hdraining : s.draining = false) :
    t.draining = false := by
  obtain ⟨fs, hfs, hcalls⟩ := h.stack
  unfold Server.draining at hdraining ⊢
  rw [hfs]
  simp only [List.contains_eq_mem, List.mem_append, decide_eq_false_iff_not, not_or]
    at hdraining ⊢
  exact ⟨hcalls, hdraining⟩

theorem begins_locks (h : LocksOk l) (hasks : l.asks = false) (he : e ≠ .notifications)
    (hidle : l.server.stack = []) (hbegins : begins l.server e = .ok t)
    (hstep : Step l.server e t) : LocksOk { l with server := t } := by
  have hcalls := begins_extends he t hbegins
  apply h.main (reachable_step h.reachable hstep) (h.dns_idle hidle)
  · intro htrue
    exact absurd (htrue.symm.trans hasks) (by simp)
  · exact hcalls.workers
  · exact fun i hi => extends_draining hcalls (h.notifier_alone i hi)

theorem run_locks {k : Answers} (h : LocksOk l)
    (hgoes : l.goes (.run k) (fun l => { l with dns := none }) = .ok l') : LocksOk l' := by
  obtain ⟨t, hstep, rfl⟩ := goes_ok hgoes
  have hworkers := main_workers hstep (by simp)
  have hrun : step l.server (.run k) = .ok t := hstep
  rw [step] at hrun
  split at hrun
  next => cases hrun
  next f fs hstack =>
    apply h.main (reachable_step h.reachable hstep) rfl _ hworkers
    · intro i hi
      -- as long as a worker notifies, the main thread is in no loop over the jobs
      have hdraining := h.notifier_alone i hi
      unfold Server.draining at hdraining
      rw [hstack] at hdraining
      simp only [List.contains_eq_mem, List.mem_cons, decide_eq_false_iff_not, not_or]
        at hdraining
      refine extends_draining (runFrame_extends (Ne.symm hdraining.1) t hrun) ?_
      simpa [Server.draining] using hdraining.2
    · intro hasks
      rw [h.asks_idle hasks] at hstack
      cases hstack

/-- Whoever makes the step of another state has not just entered, and does not notify. -/
theorem LocksOk.elsewhere (h : LocksOk l) (hi : l.server.workers[i]? = some w) :
    (w.state ≠ .resolving → ∀ j ∈ l.entered, j ≠ i) ∧
      (w.state ≠ .notifying → ∀ j, l.notifier = some j → j ≠ i) := by
  constructor
  · rintro hw j hj rfl
    obtain ⟨v, hv, hstate⟩ := h.entered_resolving j hj
    obtain rfl := Option.some.inj (hi.symm.trans hv)
    exact hw hstate
  · rintro hw j hj rfl
    obtain ⟨v, hv, hstate⟩ := h.notifier_notifying j hj
    obtain rfl := Option.some.inj (hi.symm.trans hv)
    exact hw hstate

theorem worker_locks {entered : List ℕ} {notifier : Option ℕ} (h : LocksOk l)
    (hstep : Step l.server (.worker i k) t)
    (hentered : ∀ j ∈ entered, j ∈ l.entered ∧ ((∃ error l, k = .finish error l) → j ≠ i))
    (hnotifier : ∀ j, notifier = some j →
      l.notifier = some j ∧ ((∃ queued, k = .notify queued) → j ≠ i))
    (hfinish : (∃ error l, k = .finish error l) → i ∈ l.entered) :
    LocksOk ⟨t, l.dns, l.asks, entered, notifier⟩ := by
  have hreach := reachable_step h.reachable hstep
  obtain ⟨d, b, hok⟩ := reachable_ok h.reachable
  have hworker : step l.server (.worker i k) = .ok t := hstep
  rw [step] at hworker
  split at hworker
  next => cases hworker
  next w hi =>
    obtain ⟨st, hmoved⟩ := dnsWorker_moved hok hi hworker
    obtain ⟨hresolving, hnotifying⟩ := h.elsewhere hi
    have hnext := hmoved.next
    apply h.worker hreach hi hmoved
    · intro j hj
      obtain ⟨hmem, hne⟩ := hentered j hj
      refine ⟨hmem, ?_⟩
      by_cases hw : w.state = .resolving
      · rw [hw] at hnext
        exact hne (finish_of_resolving hnext)
      · exact hresolving hw j hmem
    · intro j hj
      obtain ⟨hbefore, hne⟩ := hnotifier j hj
      refine ⟨hbefore, ?_⟩
      by_cases hw : w.state = .notifying
      · rw [hw] at hnext
        exact hne (notify_of_notifying hnext)
      · exact hnotifying hw j hbefore
    · intro hst
      refine ⟨hi, ?_⟩
      rcases hmoved.locks hst with hw | hlocks
      · rw [hw] at hnext
        exact Or.inr (hfinish (finish_of_resolving hnext))
      · exact Or.inl hlocks

/-- A worker step that takes and gives back nothing. -/
theorem plain_locks (h : LocksOk l) (hfinish : ¬ ∃ error l, k = .finish error l)
    (hnotify : (∃ queued, k = .notify queued) → l.notifier ≠ some i)
    (hgoes : l.goes (.worker i k) id = .ok l') : LocksOk l' := by
  obtain ⟨t, hstep, rfl⟩ := goes_ok hgoes
  refine worker_locks (l := l) h hstep (fun j hj => ⟨hj, fun hk => absurd hk hfinish⟩) ?_
    fun hk => absurd hk hfinish
  intro j hj
  refine ⟨hj, ?_⟩
  rintro hk rfl
  exact hnotify hk hj

theorem workerStep_locks (h : LocksOk l) (hstep : LockStep l (.goes (.worker i k)) l') :
    LocksOk l' := by
  have hok : lockStep l (.goes (.worker i k)) = .ok l' := hstep
  cases k with
  | finish error result =>
    rw [lockStep] at hok
    split at hok
    next hmem =>
      obtain ⟨t, ht, rfl⟩ := goes_ok hok
      refine worker_locks (l := l) h ht ?_ (fun j hj => ⟨hj, ?_⟩) fun _ => hmem
      · intro j hj
        obtain ⟨hin, hne⟩ := List.mem_filter.mp hj
        exact ⟨hin, fun _ => by simpa using hne⟩
      · rintro ⟨queued, hk⟩
        cases hk
    next => cases hok
  | notify queued =>
    have hfinish : ¬ ∃ error l, WorkerStep.notify queued = .finish error l := by
      rintro ⟨error, l, hk⟩
      cases hk
    cases queued with
    | true =>
      rw [lockStep] at hok
      split at hok
      next hnotifier =>
        obtain ⟨t, ht, rfl⟩ := goes_ok hok
        exact worker_locks (l := l) h ht (fun j hj => ⟨hj, fun hk => absurd hk hfinish⟩)
          (by simp) fun hk => absurd hk hfinish
      next => cases hok
    | false =>
      rw [lockStep] at hok
      split at hok
      next => cases hok
      next hnotifier => exact plain_locks h hfinish (fun _ => hnotifier) hok
  | unlock | release | exit =>
    refine plain_locks h ?_ ?_ hok
    · rintro ⟨error, l, hk⟩
      cases hk
    · rintro ⟨queued, hk⟩
      cases hk

/-- What a state is when the idle main thread has begun with `e`. -/
theorem beginning_locks (h : LocksOk l)
    (hok : (if l.asks = true then .error .unreal else l.goes e id) = .ok l')
    (hstep : step l.server e = if l.server.stack = [] then begins l.server e else .error .unreal)
    (he : e ≠ .notifications) : LocksOk l' := by
  split at hok
  next => cases hok
  next hasks =>
    obtain ⟨t, ht, rfl⟩ := goes_ok hok
    have hbegins : step l.server e = .ok t := ht
    rw [hstep] at hbegins
    split at hbegins
    next hidle => exact begins_locks h (by simpa using hasks) he hidle hbegins ht
    next => cases hbegins

theorem goes_locks (h : LocksOk l) (hstep : LockStep l (.goes e) l') : LocksOk l' := by
  have hok : lockStep l (.goes e) = .ok l' := hstep
  cases e with
  | notifications => cases hok
  | run k =>
    rw [lockStep] at hok
    split at hok
    next => exact run_locks h hok
    next => cases hok
  | worker i k => exact workerStep_locks h hstep
  | accept | clientRead | clientWrite | originRead | originWrite | forceShutdown | destroy
  | otherOpen | otherClose => exact beginning_locks h hok rfl (by simp)

/-- A mutex is taken by who finds it free; the server is as it was. -/
theorem taken_locks (h : LocksOk l) :
    (∀ a, atDns l.server = some a → l.inside a = false → LocksOk { l with dns := some a }) ∧
      (∀ i w, l.server.workers[i]? = some w → w.state = .resolving → l.dns ≠ some w.socks →
        l.inside w.socks = false → LocksOk { l with entered := i :: l.entered }) ∧
      ∀ i w, l.server.workers[i]? = some w → w.state = .notifying → l.server.draining = false →
        LocksOk { l with notifier := some i } := by
  refine ⟨?_, ?_, ?_⟩
  · intro a hat hfree
    refine { h with
      at_dns := ?_
      dns_alone := ?_ }
    · intro c hc
      rw [← Option.some.inj hc]
      exact hat
    · intro c hc i w hin
      rw [← Option.some.inj hc]
      exact not_inside hfree hin
  · intro i w hi hw hdns hfree
    have hentered : ∀ j v, Inside { l with entered := i :: l.entered } j v →
        Inside l j v ∨ j = i ∧ v = w := by
      rintro j v ⟨hj, hlocks | hmem⟩
      · exact Or.inl ⟨hj, Or.inl hlocks⟩
      · rcases List.mem_cons.mp hmem with rfl | hmem
        · exact Or.inr ⟨rfl, Option.some.inj (hj.symm.trans hi)⟩
        · exact Or.inl ⟨hj, Or.inr hmem⟩
    refine { h with
      entered_resolving := ?_
      dns_alone := ?_
      inside_alone := ?_ }
    · intro j hj
      rcases List.mem_cons.mp hj with rfl | hj
      · exact ⟨w, hi, hw⟩
      · exact h.entered_resolving j hj
    · intro a ha j v hin
      rcases hentered j v hin with hin | ⟨-, rfl⟩
      · exact h.dns_alone a ha j v hin
      · rintro rfl
        exact hdns ha
    · intro j m v u hv hu heq
      rcases hentered j v hv with hin | ⟨rfl, rfl⟩
      · rcases hentered m u hu with hin' | ⟨rfl, rfl⟩
        · exact h.inside_alone j m v u hin hin' heq
        · exact absurd heq (not_inside hfree hin)
      · rcases hentered m u hu with hin' | ⟨rfl, -⟩
        · exact absurd heq.symm (not_inside hfree hin')
        · rfl
  · intro i w hi hw hdraining
    refine { h with
      notifier_notifying := ?_
      notifier_alone := ?_ }
    · intro j hj
      rw [← Option.some.inj hj]
      exact ⟨w, hi, hw⟩
    · exact fun _ _ => hdraining

theorem LocksOk.step {e : LockEvent} (h : LocksOk l) (hstep : LockStep l e l') : LocksOk l' := by
  have hok : lockStep l e = .ok l' := hstep
  obtain ⟨hdns, hentered, hnotifier⟩ := taken_locks h
  cases e with
  | asks =>
    rw [lockStep] at hok
    split at hok
    next hidle =>
      rw [← Except.ok.inj hok]
      exact { h with asks_idle := fun _ => hidle.1 }
    next => cases hok
  | mainLocksResolution =>
    rw [lockStep] at hok
    split at hok
    next hfree => exact notifications_locks h hfree.1 hfree.2 hok
    next => cases hok
  | mainLocksDns =>
    rw [lockStep] at hok
    split at hok
    next a hat =>
      split at hok
      next hfree =>
        rw [← Except.ok.inj hok]
        exact hdns a hat hfree.2
      next => cases hok
    next => cases hok
  | workerLocksDns i =>
    rw [lockStep] at hok
    split at hok
    next w hi =>
      split at hok
      next hfree =>
        rw [← Except.ok.inj hok]
        exact hentered i w hi hfree.1 hfree.2.1 hfree.2.2
      next => cases hok
    next => cases hok
  | workerLocksResolution i =>
    rw [lockStep] at hok
    split at hok
    next w hi =>
      split at hok
      next hfree =>
        rw [← Except.ok.inj hok]
        exact hnotifier i w hi hfree.1 hfree.2.2
      next => cases hok
    next => cases hok
  | goes e => exact goes_locks h hstep

theorem locks_ok (h : LocksReachable l) : LocksOk l := by
  obtain ⟨es, hrun⟩ := h
  exact hrun.invariant init_locks LocksOk.step

end Steps

end SocksProxy.ServerLocks
