import Mathlib.Algebra.Ring.Nat
import SocksProxy.LockOrder

/-!
What the main thread has begun, and what the workers have still to do, is a finite
amount of work: every call that is made and every worker that is started is paid
for by the call that makes it. So the server comes to rest by itself, in whatever
order its threads run, unless something new arrives. It also cannot get stuck
before: a thread that waits for a mutex waits for one that can go on.
-/
namespace SocksProxy.ServerWork

open Kernel Request Ledgers ServerState ServerSteps ServerRefs ServerSockets ServerEntries
open ServerPool ServerParts ServerStages ServerClosing ServerLoops ServerWorkers ServerRuns
open ServerLocks ServerOwners LockOrder Runs
open ConnState (FdInterest OP_NOOP OP_READ OP_WRITE)

variable {s t u : Server} {b : Bottom} {d : Doing} {a fd i n m : ℕ} {o : Socks5} {k : Answers}
variable {f : Frame} {fs gs : List Frame} {w : DnsWorker} {r : Except Halt Server} {real : Prop}

section Amount

/-- Nobody has begun to close the connection `a`. -/
def closable (s : Server) (a : ℕ) : Bool := (s.heap a).any fun o => !o.closing

/-- socks5_connection_close returns at once when `closing` is set. -/
def closeWork (s : Server) (a : ℕ) : ℕ := if closable s a then 11 else 1

/-- The steps that a call may take, with those of the calls it makes. -/
def frameWork (s : Server) : Frame → ℕ
  | .connectionClose a => closeWork s a
  | .clientClose _ => 5
  | .originClose _ => 3
  | .resolveStart _ => 20
  | .resolveSpawn _ => 19
  | .resolveFailed _ _ => 12
  | .destroy i => 13 * (FD_SIZE - i) + 4
  | .destroyJobs => 2
  | .ended => 0
  | _ => 1

def stackWork (s : Server) (fs : List Frame) : ℕ := (fs.map (frameWork s)).sum

def workerWork : WorkerState → ℕ
  | .resolving => 7
  | .notifying => 6
  | .unlocking _ => 3
  | .releasing _ => 2
  | .freeing _ => 1
  | .exited => 0

def workersWork (ws : List DnsWorker) : ℕ := (ws.map fun w => workerWork w.state).sum

/-- The jobs that are left, which handle_block_notifications may make into lookups;
the job that it is at is in the list until its cleanup. -/
def jobsWork (s : Server) : ℕ :=
  if s.draining then 22 * (s.jobs.length - if .cleanup ∈ s.stack then 1 else 0)
  else 2 * s.jobs.length

/-- The connections of the pool that the forced shutdown has not come to. -/
def unforced (s : Server) : ℕ := s.pool.countP fun a => .forceCheck a ∉ s.stack

def work (s : Server) : ℕ :=
  stackWork s s.stack + workersWork s.workers + jobsWork s + 13 * unforced s

/-- The steps of the server that nothing from outside brings about. -/
def internal : Event → Bool
  | .run _ => true
  | .worker _ _ => true
  | _ => false

/-- A step of the main thread in what it has begun, or of a worker. -/
def Works : Server → Event → Server → Prop := Guarded Step fun _ e => internal e = true

theorem closeWork_le (s : Server) (a : ℕ) : closeWork s a ≤ 11 := by
  unfold closeWork
  split <;> omega

theorem closeWork_closing (h : closable s a = false) : closeWork s a = 1 := by
  unfold closeWork
  rw [if_neg (by simp [h])]

theorem frameWork_mono (h : ∀ a, closable t a = true → closable s a = true) (f : Frame) :
    frameWork t f ≤ frameWork s f := by
  cases f with
  | connectionClose a =>
    show closeWork t a ≤ closeWork s a
    cases hs : closable s a with
    | true =>
      have hle := closeWork_le t a
      rw [closeWork, closeWork, hs] at *
      exact hle
    | false =>
      have ht : closable t a = false := by
        by_contra hne
        exact absurd (h a (by simpa using hne)) (by simp [hs])
      rw [closeWork_closing hs, closeWork_closing ht]
  | _ => exact Nat.le_refl _

theorem stackWork_mono (h : ∀ a, closable t a = true → closable s a = true) (fs : List Frame) :
    stackWork t fs ≤ stackWork s fs := by
  unfold stackWork
  induction fs with
  | nil => exact Nat.le_refl _
  | cons f fs ih =>
    have hf := frameWork_mono h f
    simp only [List.map_cons, List.sum_cons]
    omega

theorem stackWork_heap (h : t.heap = s.heap) (fs : List Frame) :
    stackWork t fs = stackWork s fs := by
  have hclosable : ∀ a, closable t a = closable s a := by
    intro a
    unfold closable
    rw [h]
  exact le_antisymm (stackWork_mono (fun a ha => hclosable a ▸ ha) fs)
    (stackWork_mono (fun a ha => (hclosable a).symm ▸ ha) fs)

@[simp] theorem stackWork_nil : stackWork s [] = 0 := rfl

@[simp] theorem stackWork_cons :
    stackWork s (f :: fs) = frameWork s f + stackWork s fs := List.sum_cons

@[simp] theorem stackWork_append :
    stackWork s (fs ++ gs) = stackWork s fs + stackWork s gs := by
  unfold stackWork
  rw [List.map_append, List.sum_append]

theorem workersWork_append (ws ws' : List DnsWorker) :
    workersWork (ws ++ ws') = workersWork ws + workersWork ws' := by
  unfold workersWork
  rw [List.map_append, List.sum_append]

theorem workersWork_resolving {ws : List DnsWorker} (h : ∀ w ∈ ws, w.state = .resolving) :
    workersWork ws = 7 * ws.length := by
  unfold workersWork
  induction ws with
  | nil => rfl
  | cons w ws ih =>
    rw [List.map_cons, List.sum_cons, ih fun v hv => h v (List.mem_cons_of_mem w hv),
      h w List.mem_cons_self, List.length_cons]
    simp only [workerWork]
    omega

theorem workersWork_set {ws : List DnsWorker} (hi : ws[i]? = some w) (st : WorkerState) :
    workersWork (ws.set i { w with state := st }) + workerWork w.state =
      workersWork ws + workerWork st := by
  unfold workersWork
  induction ws generalizing i with
  | nil => exact absurd hi (by simp)
  | cons v ws ih =>
    cases i with
    | zero =>
      obtain rfl : v = w := Option.some.inj hi
      simp only [List.set_cons_zero, List.map_cons, List.sum_cons]
      omega
    | succ i =>
      have htail := ih (i := i) hi
      simp only [List.set_cons_succ, List.map_cons, List.sum_cons]
      omega

end Amount

section Costs

/-- A loop, or what it does between two rounds. -/
def isLoop : Frame → Bool
  | .notifications => true
  | .cleanup => true
  | .force => true
  | .forceCheck _ => true
  | .destroy _ => true
  | .destroyJobs => true
  | .ended => true
  | _ => false

/-- Between `s` and `t` the main thread has made calls and started workers that
take at most `n` steps. -/
structure Uses (n : ℕ) (s t : Server) : Prop where
  closable : ∀ a, closable t a = true → closable s a = true
  pool : t.pool.Sublist s.pool
  jobs : t.jobs = s.jobs
  calls : ∃ fs ws, t.stack = fs ++ s.stack ∧ t.workers = s.workers ++ ws ∧
    (∀ w ∈ ws, w.state = .resolving) ∧ (∀ f ∈ fs, isLoop f = false) ∧
    stackWork t fs + 7 * ws.length ≤ n

theorem Uses.refl (s : Server) : Uses 0 s s :=
  ⟨fun _ h => h, List.Sublist.refl _, rfl, [], [], rfl, (List.append_nil _).symm, by simp, by simp,
    by simp⟩

theorem Uses.mono (h : Uses n s t) (hle : n ≤ m) : Uses m s t := by
  obtain ⟨fs, ws, hstack, hworkers, hnew, hcalls, hcost⟩ := h.calls
  exact ⟨h.closable, h.pool, h.jobs, fs, ws, hstack, hworkers, hnew, hcalls, hcost.trans hle⟩

theorem Uses.trans (h : Uses n s t) (h' : Uses m t u) : Uses (n + m) s u := by
  obtain ⟨fs, ws, hstack, hworkers, hnew, hcalls, hcost⟩ := h.calls
  obtain ⟨gs, vs, hstack', hworkers', hnew', hcalls', hcost'⟩ := h'.calls
  refine ⟨fun a ha => h.closable a (h'.closable a ha), h'.pool.trans h.pool, h'.jobs.trans h.jobs,
    gs ++ fs, ws ++ vs, ?_, ?_, ?_, ?_, ?_⟩
  · rw [hstack', hstack, List.append_assoc]
  · rw [hworkers', hworkers, List.append_assoc]
  · intro w hw
    rcases List.mem_append.mp hw with hw | hw
    · exact hnew w hw
    · exact hnew' w hw
  · intro f hf
    rcases List.mem_append.mp hf with hf | hf
    · exact hcalls' f hf
    · exact hcalls f hf
  · have hmono := stackWork_mono h'.closable fs
    rw [stackWork_append, List.length_append]
    omega

/-- The threads and what they share are left alone. -/
theorem uses_same (hclose : ∀ a, closable t a = true → closable s a = true)
    (hpool : t.pool.Sublist s.pool) (hjobs : t.jobs = s.jobs) (hworkers : t.workers = s.workers)
    (hstack : t.stack = s.stack) : Uses 0 s t :=
  ⟨hclose, hpool, hjobs, [], [], hstack, by rw [hworkers, List.append_nil], by simp, by simp,
    by simp⟩

theorem uses_heap (hheap : t.heap = s.heap) (hpool : t.pool = s.pool) (hjobs : t.jobs = s.jobs)
    (hworkers : t.workers = s.workers) (hstack : t.stack = s.stack) : Uses 0 s t := by
  refine uses_same ?_ (by rw [hpool]) hjobs hworkers hstack
  intro a ha
  unfold closable at ha ⊢
  rw [hheap] at ha
  exact ha

theorem uses_push (hcalls : ∀ f ∈ fs, isLoop f = false) :
    Uses (stackWork s fs) s (s.push fs) := by
  refine ⟨fun _ h => h, List.Sublist.refl _, rfl, fs, [], rfl, (List.append_nil _).symm, by simp,
    hcalls, ?_⟩
  have hmono : stackWork (s.push fs) fs ≤ stackWork s fs := stackWork_mono (fun _ h => h) fs
  simpa using hmono

/-- A connection is set whose closing has not been taken back. -/
theorem uses_set {o' : Socks5} (ho : s.heap a = some o)
    (hclosing : o.closing = true → o'.closing = true) : Uses 0 s (s.set a o') := by
  refine uses_same ?_ (List.Sublist.refl _) rfl rfl rfl
  intro c hc
  unfold closable at hc ⊢
  by_cases hca : c = a
  · subst hca
    cases hopen : o.closing with
    | true => simp [Server.set, hclosing hopen] at hc
    | false => simp [ho, hopen]
  · simpa [Server.set, Function.update_of_ne hca] using hc

/-- What a call costs. It is taken, or faults, where the answers are some that the kernel
could give and no worker has the mutex that the call takes (`real`). -/
def Costs (real : Prop) (n : ℕ) (s : Server) (r : Except Halt Server) : Prop :=
  (∀ t, r = .ok t → Uses n s t) ∧ ∀ h, r = .error h → real → h = .fault

theorem costs_ok (h : Uses n s t) : Costs real n s (.ok t) := by
  refine ⟨?_, ?_⟩
  · intro u hu
    rw [← Except.ok.inj hu]
    exact h
  · intro _ heq
    cases heq

theorem costs_fault : Costs real n s (.error .fault) := by
  refine ⟨?_, ?_⟩
  · intro _ heq
    cases heq
  · intro h heq _
    exact (Except.error.inj heq).symm

theorem costs_unreal {h : Halt} (hreal : ¬ real) : Costs real n s (.error h) := by
  refine ⟨?_, ?_⟩
  · intro _ heq
    cases heq
  · exact fun _ _ hr => absurd hr hreal

/-- The mutex that a call takes is a worker's. -/
theorem costs_locked {h : Halt} (hfree : real → s.locked a = false) (hlocked : s.locked a = true) :
    Costs real n s (.error h) := by
  refine costs_unreal fun hr => ?_
  rw [hfree hr] at hlocked
  cases hlocked

theorem Costs.after (h' : Costs real m t r) (h : Uses n s t) : Costs real (n + m) s r :=
  ⟨fun u hu => h.trans (h'.1 u hu), h'.2⟩

theorem Costs.mono (h : Costs real n s r) (hle : n ≤ m) : Costs real m s r :=
  ⟨fun t ht => (h.1 t ht).mono hle, h.2⟩

theorem Costs.bind {α : Type} {r : Except Halt α} {g : α → Server} {f : α → Except Halt Server}
    (h : Costs real n s (r.map g)) (hf : ∀ x, Costs real m (g x) (f x)) :
    Costs real (n + m) s (r.bind f) := by
  cases r with
  | error e =>
    refine ⟨?_, fun e' he => h.2 e' he⟩
    intro _ heq
    cases heq
  | ok x => exact (hf x).after (h.1 (g x) rfl)

theorem Costs.map {g : Server → Server} (h : Costs real n s r) (hg : ∀ t, Uses m t (g t)) :
    Costs real (n + m) s (r.map g) := by
  cases r with
  | error e =>
    refine ⟨?_, fun e' he => h.2 e' he⟩
    intro _ heq
    cases heq
  | ok t => exact costs_ok ((h.1 t rfl).trans (hg t))

theorem costs_owned {f : Socks5 → Except Halt Server}
    (h : ∀ o, s.heap a = some o → o.released = false → Costs real n s (f o)) :
    Costs real n s (s.owned a f) := by
  unfold Server.owned
  split
  next o ho =>
    split
    next => exact costs_fault
    next hopen => exact h o ho (by simpa using hopen)
  next => exact costs_fault

end Costs

section Close

theorem sysClose_costs : Costs real 0 s (sysClose s fd) := by
  unfold sysClose
  split
  next => exact costs_fault
  next => exact costs_ok (uses_heap rfl rfl rfl rfl rfl)

theorem socks5Release_costs : Costs real 0 s (socks5Release s a) := by
  unfold socks5Release
  split
  next => exact costs_fault
  next o ho =>
    split
    next => exact costs_fault
    next =>
      refine costs_ok (uses_same ?_ (List.Sublist.refl _) rfl rfl rfl)
      intro c hc
      unfold closable at hc ⊢
      by_cases hca : c = a
      · subst hca
        simp [socks5Free] at hc
      · simpa [socks5Free, Function.update_of_ne hca] using hc
    next => exact costs_ok (uses_set ho id)

theorem ownerRelease_costs : Costs real 0 s (ownerRelease s a) := by
  refine costs_owned fun o ho _ => ?_
  have hset : Uses 0 s (s.set a { o with released := true }) := uses_set ho id
  let t : Server := { s.set a { o with released := true } with
    books := { s.books with owners := s.books.owners.settle o.serial } }
  have ht : Uses 0 s t := hset.trans (u := t) (uses_heap rfl rfl rfl rfl rfl)
  exact socks5Release_costs.after ht

theorem socks5Cancel_costs (hfree : real → s.locked a = false) :
    Costs real 0 s (socks5Cancel s a) := by
  unfold socks5Cancel
  split
  next hlocked => exact costs_locked hfree hlocked
  next => exact costs_owned fun _ ho _ => costs_ok (uses_set ho id)

theorem socksv5PoolRemove_costs : Costs real 0 s (socksv5PoolRemove s a) := by
  unfold socksv5PoolRemove
  split
  next =>
    split
    next => exact costs_ok (uses_same (fun _ h => h) List.erase_sublist rfl rfl rfl)
    next => exact costs_ok (Uses.refl s)
  next => exact costs_fault

theorem socksv5Close_costs : Costs real (closeWork s a) s (socksv5Close s fd a) := by
  refine costs_owned fun o ho _ => ?_
  have hset : Uses 0 s (s.set a
      (if o.clientFd = some fd then { o with clientRegistered := false } else o)) := by
    apply uses_set ho
    split <;> exact id
  refine (socksv5PoolRemove_costs.after (hset.trans (uses_push (by simp [isLoop])))).mono ?_
  have hmono := frameWork_mono hset.closable (.connectionClose a)
  simpa [frameWork] using hmono

/-- Only the entry of a client calls for more work when it is closed. -/
theorem handleClose_costs {it : Item}
    (h : ∀ a, it.handler = .socksv5 → it.data = some a → closeWork s a ≤ n) :
    Costs real n s (handleClose s fd it) := by
  unfold handleClose
  split
  next a hhandler hdata => exact socksv5Close_costs.mono (h a hhandler hdata)
  next a _ _ =>
    refine costs_owned fun o ho _ => costs_ok ((uses_set ho ?_).mono (Nat.zero_le n))
    split <;> exact id
  next =>
    refine costs_ok (Uses.mono ?_ (Nat.zero_le n))
    cases it.data <;> exact uses_heap rfl rfl rfl rfl rfl
  next => exact costs_fault

theorem selectorUnregisterFd_costs
    (h : ∀ it a, s.items fd = some it → it.handler = .socksv5 → it.data = some a →
      closeWork s a ≤ n) : Costs real (n + 1) s (selectorUnregisterFd s fd) := by
  unfold selectorUnregisterFd
  split
  next => exact costs_ok ((Uses.refl s).mono (Nat.zero_le _))
  next it hit =>
    have hpush : Uses 1 s (s.push [.clear fd it.data]) :=
      (uses_push (by simp [isLoop])).mono (by simp [frameWork])
    let t : Server := { s with
      stack := .clear fd it.data :: s.stack
      books := { s.books with registrations := s.books.registrations.settle it.registration } }
    have ht : Uses 1 s t := hpush.trans (u := t) (uses_heap rfl rfl rfl rfl rfl)
    have hclose : Costs real n t (handleClose t fd it) :=
      handleClose_costs fun a hhandler hdata => h it a hit hhandler hdata
    exact (hclose.after ht).mono (by omega)

/-- Whatever the entry, at most one connection is closed. -/
theorem selectorUnregisterFd_bounded : Costs real 12 s (selectorUnregisterFd s fd) :=
  selectorUnregisterFd_costs fun _ a _ _ _ => closeWork_le s a

theorem socks5ConnectionClose_costs :
    Costs real (closeWork s a - 1) s (socks5ConnectionClose s a) := by
  refine costs_owned fun o ho _ => ?_
  split
  next => exact costs_ok ((Uses.refl s).mono (Nat.zero_le _))
  next hopen =>
    have hset : Uses 0 s (s.set a { o with closing := true }) := uses_set ho fun _ => rfl
    refine costs_ok ((hset.trans (uses_push (by simp [isLoop]))).mono ?_)
    have hclosable : closable s a = true := by simpa [closable, ho] using hopen
    simp [closeWork, hclosable, frameWork]

/-- A connection that is closing is unregistered as a client. -/
theorem clientClose_costs (hclosing : closable s a = false)
    (hitem : ∀ o fd it c, s.heap a = some o → o.clientRegistered = true → o.clientFd = some fd →
      s.items fd = some it → it.data = some c → c = a) :
    Costs real 4 s (clientClose s a) := by
  refine costs_owned fun o ho _ => ?_
  split
  next => exact costs_ok ((Uses.refl s).mono (Nat.zero_le _))
  next fd hfd =>
    split
    next hreg =>
      have hset : Uses 0 s (s.set a { o with clientRegistered := false }) := uses_set ho id
      have hpush : Uses 1 s ((s.set a { o with clientRegistered := false }).push
          [.clientCloseFd a fd]) :=
        (hset.trans (uses_push (by simp [isLoop]))).mono (by simp [frameWork])
      refine (Costs.after (m := 2) (selectorUnregisterFd_costs ?_) hpush).mono (by omega)
      intro it c hit _ hdata
      obtain rfl := hitem o fd it c ho hreg hfd hit hdata
      have hstill : closable ((s.set c { o with clientRegistered := false }).push
          [.clientCloseFd c fd]) c = false := by
        by_contra hne
        exact absurd (hpush.closable c (by simpa using hne)) (by simp [hclosing])
      rw [closeWork_closing hstill]
    next => exact costs_ok ((uses_push (by simp [isLoop])).mono (by simp [frameWork]))

/-- A descriptor of `a` is closed, and is no longer in `a`. -/
theorem sysClose_set_costs {o' : Socks5} (ho : s.heap a = some o)
    (hclosing : o.closing = true → o'.closing = true) :
    Costs real 0 s ((sysClose s fd).map fun s => s.set a o') := by
  unfold sysClose
  cases s.fds fd with
  | none => exact costs_fault
  | some sk =>
    refine costs_ok (Uses.trans (n := 0) (m := 0) (t := s.set a o') (uses_set ho hclosing) ?_)
    exact uses_heap rfl rfl rfl rfl rfl

theorem clientCloseFd_costs : Costs real 0 s (clientCloseFd s a fd) := by
  refine costs_owned fun o ho _ => sysClose_set_costs ho ?_
  split <;> exact id

/-- The entry of an origin is unregistered, which calls for nothing else. -/
theorem originClose_costs
    (hitem : ∀ o fd it, s.heap a = some o → o.originRegistered = true → o.originFd = some fd →
      s.items fd = some it → it.handler ≠ .socksv5) :
    Costs real 2 s (originClose s a) := by
  refine costs_owned fun o ho _ => ?_
  split
  next fd hreg hfd =>
    have hset : Uses 0 s (s.set a { o with originRegistered := false }) := uses_set ho id
    have hpush : Uses 1 s ((s.set a { o with originRegistered := false }).push
        [.originCloseFd a]) :=
      (hset.trans (uses_push (by simp [isLoop]))).mono (by simp [frameWork])
    refine (Costs.after (m := 1) (selectorUnregisterFd_costs (n := 0) ?_) hpush).mono (by omega)
    intro it c hit hhandler _
    exact absurd hhandler (hitem o fd it ho hreg hfd hit)
  next => exact costs_ok ((uses_push (by simp [isLoop])).mono (by simp [frameWork]))

theorem originCloseFd_costs : Costs real 0 s (originCloseFd s a) := by
  refine costs_owned fun o ho _ => ?_
  split
  next => exact costs_ok (Uses.refl s)
  next => exact sysClose_set_costs ho id

end Close

section Connect

theorem selectorSetInterest_uses (s : Server) (fd : Option ℕ) (i : FdInterest) :
    Uses 0 s (selectorSetInterest s fd i) := by
  cases fd <;> exact uses_heap rfl rfl rfl rfl rfl

/-- A state is entered, and an interest set. -/
theorem interest_costs {o' : Socks5} (ho : s.heap a = some o)
    (hclosing : o.closing = true → o'.closing = true) (fd : Option ℕ) (i : FdInterest) :
    Costs real 0 s (.ok (selectorSetInterest (s.set a o') fd i)) :=
  costs_ok ((uses_set ho hclosing).trans (selectorSetInterest_uses _ fd i))

/-- Answers of a kernel that opens no sockets and finds memory for a worker. -/
def Docile (k : Answers) : Prop :=
  (∀ n, ∃ e, (k.attempt n).socket = .error e) ∧ k.spawn ≠ .noMemory

/-- The socket of an attempt that has failed is closed. -/
theorem attempt_failed_costs (h : Uses 0 s t) (e : Errno) :
    Costs real 0 s (((sysClose t fd).map fun u => (Status.failed e, u)).map Prod.snd) := by
  have hclose : Costs real 0 s (sysClose t fd) := sysClose_costs.after h
  cases hres : sysClose t fd with
  | error e =>
    rw [hres] at hclose
    refine ⟨?_, hclose.2⟩
    intro _ heq
    cases heq
  | ok u =>
    rw [hres] at hclose
    exact hclose

theorem registerOriginConnect_costs {dial : Dial} (hreal : real → ∃ e, dial.socket = .error e) :
    Costs real 0 s ((registerOriginConnect s a dial).map Prod.snd) := by
  unfold registerOriginConnect
  split
  next => exact costs_fault
  next o ho =>
    split
    next => exact costs_ok (Uses.refl s)
    next fd hsocket =>
      have hopen : Uses 0 s (sysOpen s fd (some o.serial) .origin) :=
        uses_heap rfl rfl rfl rfl rfl
      split
      next =>
        refine costs_unreal fun hr => ?_
        obtain ⟨e, he⟩ := hreal hr
        rw [hsocket] at he
        cases he
      next =>
        dsimp only
        split
        next e _ => exact attempt_failed_costs hopen e
        next =>
          split
          next e _ => exact attempt_failed_costs hopen e
          next status _ =>
            split
            next =>
              unfold sysClose
              split
              next => exact costs_fault
              next =>
                refine costs_ok (Uses.trans (n := 0) (m := 0) (t := s.set a
                  { o with originFd := none }) (uses_set ho id) ?_)
                exact uses_heap rfl rfl rfl rfl rfl
            next u hregister =>
              unfold selectorRegister at hregister
              split at hregister
              next => cases hregister
              next =>
                rw [← Option.some.inj hregister]
                refine costs_ok (Uses.trans (n := 0) (m := 0) (t := s.set a
                  { o with originFd := some fd, originRegistered := true }) (uses_set ho id) ?_)
                refine uses_heap ?_ rfl rfl rfl rfl
                simp [Server.set, sysOpen, Server.setItem]

theorem resolvedLoop_costs (hreal : real → Docile k) (rest : List AddrInfo) :
    ∀ n e s, Costs real 0 s ((resolvedLoop a k n e rest s).map Prod.snd) := by
  induction rest with
  | nil =>
    intro n e s
    exact costs_ok (Uses.refl s)
  | cons ai rest ih =>
    intro n e s
    rw [resolvedLoop]
    split
    next => exact costs_fault
    next o ho =>
      have hset : Uses 0 s (s.set a { o with dnsNext := rest }) := uses_set ho id
      dsimp only
      split
      next =>
        have hdial : Costs real 0 s ((registerOriginConnect (s.set a { o with dnsNext := rest }) a
            (k.attempt n)).map Prod.snd) :=
          (registerOriginConnect_costs fun hr => (hreal hr).1 n).after hset
        split
        next e' u hres =>
          rw [hres] at hdial
          exact (ih (n + 1) e' u).after (hdial.1 u rfl)
        next => exact hdial
      next => exact (ih n e _).after hset

theorem startResolvedConnect_costs (hreal : real → Docile k) :
    Costs real 0 s ((startResolvedConnect s a o k).map Prod.snd) := by
  unfold startResolvedConnect
  split
  next => exact costs_ok (Uses.refl s)
  next => exact resolvedLoop_costs hreal _ _ _ _

theorem connectDone_costs {status : Status} : Costs real 11 s (connectDone a k status s) := by
  refine costs_owned fun o ho _ => ?_
  split
  next =>
    refine Costs.mono (interest_costs ho ?_ _ _) (Nat.zero_le _)
    exact id
  next =>
    split
    next =>
      refine Costs.mono (interest_costs ho ?_ _ _) (Nat.zero_le _)
      exact id
    next =>
      have hset : Uses 0 s (s.set a { o with current := .error }) := uses_set ho id
      refine costs_ok ((hset.trans (uses_push (by simp [isLoop]))).mono ?_)
      have hle := closeWork_le (s.set a { o with current := .error }) a
      simpa [frameWork] using hle

theorem connectToOrigin_costs (hreal : real → Docile k) :
    Costs real 20 s (connectToOrigin s a k) := by
  refine costs_owned fun o ho _ => ?_
  split
  next =>
    refine Costs.mono (n := 0 + 11) (Costs.bind (registerOriginConnect_costs fun hr =>
      (hreal hr).1 0) fun _ => connectDone_costs) (by omega)
  next =>
    split
    next =>
      split
      next => exact connectDone_costs.mono (by omega)
      next =>
        split
        next =>
          exact (Costs.bind (startResolvedConnect_costs hreal) fun _ => connectDone_costs).mono
            (by omega)
        next =>
          split
          next => exact connectDone_costs.mono (by omega)
          next => exact costs_ok ((uses_push (by simp [isLoop])).mono (by simp [frameWork]))
    next => exact connectDone_costs.mono (by omega)

theorem resolveStart_costs (hfree : real → s.locked a = false) :
    Costs real 19 s (resolveStart s a) := by
  unfold resolveStart
  split
  next hlocked => exact costs_locked hfree hlocked
  next =>
    refine costs_owned fun o ho _ => ?_
    have hset : Uses 0 s (s.set a { o with
      dnsPending := true, dnsError := 0, dnsResult := none, dnsNext := [] }) := uses_set ho id
    exact costs_ok ((hset.trans (uses_push (by simp [isLoop]))).mono (by simp [frameWork]))

theorem resolveSpawn_costs (hreal : real → Docile k) :
    Costs real 18 s (resolveSpawn s a k) := by
  refine costs_owned fun o ho _ => ?_
  have hset : Uses 0 s (s.set a { o with references := o.references + 1 }) := uses_set ho id
  split
  next fd _ _ =>
    refine (connectDone_costs.after (n := 7) ?_).mono (by omega)
    refine ⟨hset.closable, List.Sublist.refl _, rfl, [], _, rfl, rfl, ?_, by simp, by simp⟩
    intro w hw
    rw [List.mem_singleton] at hw
    rw [hw]
  next e _ =>
    refine Costs.mono (n := 0 + 12) (Costs.map (socks5Release_costs.after hset) ?_) (by omega)
    exact fun t => (uses_push (by simp [isLoop])).mono (by simp [frameWork])
  next => exact costs_fault
  next hspawn => exact costs_unreal fun hr => absurd hspawn (hreal hr).2

theorem resolveFailed_costs {e : Errno} (hfree : real → s.locked a = false) :
    Costs real 11 s (resolveFailed s a e k) := by
  unfold resolveFailed
  split
  next hlocked => exact costs_locked hfree hlocked
  next =>
    refine costs_owned fun o ho _ => ?_
    have hset : Uses 0 s (s.set a { o with dnsPending := false }) := uses_set ho id
    exact (connectDone_costs.after hset).mono (by omega)

theorem originConnectReply_costs : Costs real 0 s (originConnectReply a k s) := by
  refine costs_owned fun o ho _ => ?_
  split
  next =>
    refine interest_costs ho ?_ _ _
    exact id
  next =>
    refine interest_costs ho ?_ _ _
    exact id

theorem originDrop_costs (hreal : real → Docile k) : Costs real 0 s (originDrop s a k) := by
  refine Costs.bind (g := id) (n := 0) (m := 0) ?_ fun t => ?_
  · have hclose : Costs real 0 s (originCloseFd s a) := originCloseFd_costs
    cases hres : originCloseFd s a with
    | error e =>
      rw [hres] at hclose
      exact hclose
    | ok u =>
      rw [hres] at hclose
      exact hclose
  · refine costs_owned fun o _ _ => ?_
    split
    next =>
      refine Costs.bind (n := 0) (m := 0) (startResolvedConnect_costs hreal) fun p => ?_
      split
      next => exact costs_ok (Uses.refl _)
      next => exact originConnectReply_costs
    next => exact originConnectReply_costs

end Connect

section Steps

/-- No worker has the dns_mutex that the main thread takes next. -/
def Unheld (s : Server) : Prop := ∀ a, atDns s = some a → s.locked a = false

/-- A call of the main thread, the loops apart. -/
theorem call_costs (h : Ok s d b) (hstack : s.stack = f :: fs) (hcall : isLoop f = false)
    (hreal : real → Docile k) (hfree : real → Unheld s) :
    Costs real (frameWork s f - 1) { s with stack := fs }
      (runFrame { s with stack := fs } k f) := by
  have hparts := h.ground.parts
  have hnext : ∀ a, atDns s = some a → real → Server.locked { s with stack := fs } a = false :=
    fun a hat hr => hfree hr a hat
  cases f with
  | connectionClose a => exact socks5ConnectionClose_costs
  | cancel a => exact socks5Cancel_costs (hnext a (by rw [atDns, hstack]))
  | clientClose a =>
    have hframes := hstack.symm.trans h.ground.stack
    have hd : d = .clientClose a := by
      cases d with
      | nothing => cases b <;> simp [Doing.frames, Bottom.frames] at hframes
      | _ => simp_all [Doing.frames]
    subst hd
    obtain ⟨o, ho, -, hending, -⟩ := h.stage a rfl
    refine clientClose_costs ?_ ?_
    · simp [closable, ho, hending.closing]
    · intro p fd it c hp hreg hfd hit hdata
      obtain ⟨it', hit', -, -, hdata'⟩ := registered_entry hparts hp
        (show sideRegistered .client p = true from hreg) hfd
      obtain rfl : it = it' := Option.some.inj (hit.symm.trans hit')
      exact Option.some.inj (hdata.symm.trans hdata')
  | clientCloseFd a fd => exact clientCloseFd_costs
  | originClose a =>
    refine originClose_costs ?_
    intro p fd it hp hreg hfd hit
    obtain ⟨it', hit', -, hhandler, -⟩ := registered_entry hparts hp
      (show sideRegistered .origin p = true from hreg) hfd
    obtain rfl : it = it' := Option.some.inj (hit.symm.trans hit')
    rw [hhandler]
    simp [handlerOf]
  | originCloseFd a => exact originCloseFd_costs
  | release a => exact ownerRelease_costs
  | clear fd data => exact costs_ok (uses_heap rfl rfl rfl rfl rfl)
  | resolveStart a => exact resolveStart_costs (hnext a (by rw [atDns, hstack]))
  | resolveSpawn a => exact resolveSpawn_costs hreal
  | resolveFailed a e => exact resolveFailed_costs (hnext a (by rw [atDns, hstack]))
  | originDrop a => exact originDrop_costs hreal
  | close fd => exact sysClose_costs
  | notifications => exact absurd hcall (by simp [isLoop])
  | cleanup => exact absurd hcall (by simp [isLoop])
  | force => exact absurd hcall (by simp [isLoop])
  | forceCheck a => exact absurd hcall (by simp [isLoop])
  | destroy i => exact absurd hcall (by simp [isLoop])
  | destroyJobs => exact absurd hcall (by simp [isLoop])
  | ended => exact absurd hcall (by simp [isLoop])

theorem frameWork_pos (h : isLoop f = false) : 0 < frameWork s f := by
  cases f with
  | connectionClose a =>
    show 0 < closeWork s a
    unfold closeWork
    split <;> omega
  | ended => exact absurd h (by simp [isLoop])
  | _ => simp [frameWork]

theorem mem_calls (h : ∀ g ∈ gs, isLoop g = false) (hf : isLoop f = true) :
    f ∈ gs ++ fs ↔ f ∈ fs := by
  rw [List.mem_append, or_iff_right]
  intro hmem
  rw [h f hmem] at hf
  exact absurd hf (by simp)

/-- Calls on top of the stack change nothing for the loops below. -/
theorem loops_below (hcalls : ∀ g ∈ gs, isLoop g = false) (hjobs : t.jobs = s.jobs)
    (hpool : t.pool.Sublist s.pool) (hstack : t.stack = gs ++ s.stack) :
    jobsWork t = jobsWork s ∧ unforced t ≤ unforced s := by
  refine ⟨?_, ?_⟩
  · have hdraining : t.draining = s.draining := by
      unfold Server.draining
      rw [hstack, Bool.eq_iff_iff, List.contains_iff_mem, List.contains_iff_mem,
        mem_calls hcalls rfl]
    have hcleanup : Frame.cleanup ∈ t.stack ↔ Frame.cleanup ∈ s.stack := by
      rw [hstack, mem_calls hcalls rfl]
    unfold jobsWork
    simp only [hdraining, hcleanup, hjobs]
  · unfold unforced
    refine hpool.countP_le.trans (List.countP_mono_left ?_)
    intro a _ ha
    rw [hstack, decide_eq_true_eq, mem_calls hcalls rfl] at ha
    simpa using ha

theorem Uses.work_le (h : Uses n s t) : work t ≤ work s + n := by
  obtain ⟨gs, ws, hstack, hworkers, hnew, hcalls, hcost⟩ := h.calls
  obtain ⟨hjobs, hpool⟩ := loops_below hcalls h.jobs h.pool hstack
  have hmono := stackWork_mono h.closable s.stack
  unfold work
  rw [hstack, stackWork_append, hworkers, workersWork_append, workersWork_resolving hnew, hjobs]
  omega

/-- A call that is taken off the stack leaves the rest of the work. -/
theorem work_pop (hstack : s.stack = f :: fs) (hcall : isLoop f = false) :
    work { s with stack := fs } + frameWork s f = work s := by
  have hcalls : ∀ g ∈ [f], isLoop g = false := by simpa using hcall
  have hmono : stackWork { s with stack := fs } fs = stackWork s fs := rfl
  have hdraining : Server.draining { s with stack := fs } = s.draining := by
    unfold Server.draining
    rw [Bool.eq_iff_iff, List.contains_iff_mem, List.contains_iff_mem, hstack]
    exact (mem_calls hcalls rfl).symm
  have hmem : ∀ g, isLoop g = true → (g ∈ s.stack ↔ g ∈ fs) := by
    intro g hg
    rw [hstack]
    exact mem_calls hcalls hg
  have hjobs : jobsWork { s with stack := fs } = jobsWork s := by
    unfold jobsWork
    simp only [hdraining, hmem .cleanup rfl]
  have hpool : unforced { s with stack := fs } = unforced s := by
    unfold unforced
    simp only [hmem (.forceCheck _) rfl]
  unfold work
  rw [hjobs, hpool, hmono]
  simp only [hstack, stackWork_cons]
  omega

/-- A frame of selector_destroy. -/
def ofDestroy : Frame → Bool
  | .destroy _ => true
  | .destroyJobs => true
  | .ended => true
  | _ => false

/-- What a step of the main thread means for selector_destroy: it is not left once it
has begun, and ends only with an empty list of jobs. -/
structure Onward (s t : Server) : Prop where
  ended : .ended ∈ t.stack → .ended ∈ s.stack ∨ t.jobs = []
  destroying : (∃ f ∈ s.stack, ofDestroy f = true) → ∃ f ∈ t.stack, ofDestroy f = true

theorem ofDestroy_loop (h : ofDestroy f = true) : isLoop f = true := by
  cases f <;> first | rfl | exact absurd h (by simp [ofDestroy])

theorem onward_pop (hstack : s.stack = f :: fs) (hcall : isLoop f = false) :
    Onward s { s with stack := fs } where
  ended := by
    intro hmem
    exact Or.inl (hstack ▸ List.mem_cons_of_mem f hmem)
  destroying := by
    rintro ⟨g, hg, hdestroy⟩
    rw [hstack] at hg
    rcases List.mem_cons.mp hg with rfl | hg
    · exact absurd (ofDestroy_loop hdestroy) (by simp [hcall])
    · exact ⟨g, hg, hdestroy⟩

theorem Onward.uses (h : Onward s t) (h' : Uses n t u) : Onward s u := by
  obtain ⟨gs, -, hstack, -, -, hcalls, -⟩ := h'.calls
  refine ⟨?_, ?_⟩
  · intro hmem
    rw [hstack, mem_calls hcalls rfl] at hmem
    rw [h'.jobs]
    exact h.ended hmem
  · intro hdestroy
    obtain ⟨f, hf, hf'⟩ := h.destroying hdestroy
    exact ⟨f, hstack ▸ List.mem_append_right gs hf, hf'⟩

/-- Some of the work is done, unless a worker holds it up. -/
def Pays (real : Prop) (s : Server) (r : Except Halt Server) : Prop :=
  (∀ t, r = .ok t → work t < work s ∧ Onward s t) ∧ ∀ h, r = .error h → real → h = .fault

theorem Costs.pays (h : Costs real n t r) (hlt : work t + n < work s) (honward : Onward s t) :
    Pays real s r := by
  refine ⟨?_, h.2⟩
  intro u hu
  have huses := h.1 u hu
  have hle := huses.work_le
  exact ⟨by omega, honward.uses huses⟩

end Steps

section Loops

/-- The release of a reference and the removal of its job can change places. -/
theorem release_jobs (fs : List Frame) (js : List BlockingJob) :
    ((socks5Release s a).map fun s => { s.push fs with jobs := js }) =
      socks5Release { s.push fs with jobs := js } a := by
  unfold socks5Release
  simp only [Server.push]
  cases s.heap a with
  | none => rfl
  | some o =>
    dsimp only
    split <;> rfl

theorem release_job_pays (fs : List Frame) (js : List BlockingJob)
    (hlt : work { t.push fs with jobs := js } < work s)
    (honward : Onward s { t.push fs with jobs := js }) :
    Pays real s ((socks5Release t a).map fun t => { t.push fs with jobs := js }) := by
  rw [release_jobs]
  exact socks5Release_costs.pays hlt honward

theorem notifications_pays (h : Ok s .nothing .notifications) (hreal : real → Docile k)
    (hfree : real → Unheld s) :
    Pays real s (handleBlockNotifications { s with stack := [] } k) := by
  have hstack : s.stack = [.notifications] := h.ground.stack
  unfold handleBlockNotifications
  split
  next hjobs =>
    have hjobs' : s.jobs = [] := hjobs
    refine (costs_ok (Uses.refl _)).pays ?_ ⟨by simp, by simp [hstack, ofDestroy]⟩
    simp [work, hstack, hjobs', jobsWork, unforced, frameWork, Server.draining]
  next j js hjobs =>
    have hjobs' : s.jobs = j :: js := hjobs
    let t : Server := { s with stack := [.cleanup, .notifications] }
    have hwork : work t + 20 < work s := by
      simp [work, t, hstack, hjobs', jobsWork, unforced, frameWork, Server.draining,
        stackWork_cons]
      omega
    have honward : Onward s t := ⟨by simp [t], by simp [hstack, ofDestroy]⟩
    show Pays real s (if jobMatches t j && jobHandled t j then socksv5BlockDone t j k else .ok t)
    split
    next hcase =>
      refine Costs.pays (n := 20) ?_ hwork honward
      have hat : atDns s = some j.data := by
        have hcase' : (jobMatches s j && jobHandled s j) = true := hcase
        rw [atDns, hstack]
        show reportsTo s = some j.data
        rw [reportsTo, hjobs']
        exact if_pos hcase'
      unfold socksv5BlockDone
      split
      next hlocked => exact costs_locked (fun hr => hfree hr j.data hat) hlocked
      next =>
        refine costs_owned fun o ho _ => ?_
        have hset : Uses 0 t (t.set j.data { o with dnsPending := false }) := uses_set ho id
        refine Costs.mono (n := 0 + 20) ((connectToOrigin_costs hreal).after (n := 0) ?_) (by omega)
        exact hset.trans (m := 0) (uses_heap rfl rfl rfl rfl rfl)
    next => exact (costs_ok ((Uses.refl t).mono (Nat.zero_le 20))).pays hwork honward

theorem cleanup_pays (h : Ok s .nothing .cleanup) :
    Pays real s (jobCleanup { s with stack := [.notifications] }) := by
  have hstack : s.stack = [.cleanup, .notifications] := h.ground.stack
  unfold jobCleanup
  split
  next hjobs => exact absurd hjobs h.ground.footing
  next j js hjobs =>
    have hjobs' : s.jobs = j :: js := hjobs
    refine release_job_pays (t := { s with stack := [.notifications] }) [] js ?_
      ⟨by simp [Server.push], by simp [hstack, ofDestroy]⟩
    simp [work, hstack, hjobs', jobsWork, unforced, frameWork, Server.draining, Server.push]

theorem force_pays (h : Ok s .nothing .force) (hfree : real → Unheld s) :
    Pays real s (poolForceShutdown { s with stack := [] }) := by
  have hstack : s.stack = [.force] := h.ground.stack
  unfold poolForceShutdown
  split
  next hpool =>
    have hpool' : s.pool = [] := hpool
    refine (costs_ok (Uses.refl _)).pays ?_ ⟨by simp, by simp [hstack, ofDestroy]⟩
    simp [work, hstack, hpool', jobsWork, unforced, frameWork, Server.draining]
  next a rest hpool =>
    have hpool' : s.pool = a :: rest := hpool
    let t : Server := { s with stack := [.connectionClose a, .forceCheck a, .force] }
    have hat : atDns s = some a := by rw [atDns, hstack, hpool', List.head?_cons]
    refine (socks5Cancel_costs (s := t) fun hr => hfree hr a hat).pays ?_
      ⟨by simp [t], by simp [hstack, ofDestroy]⟩
    have hclose := closeWork_le t a
    have hrest : rest.countP (fun b => decide (¬ b = a)) ≤ rest.length := List.countP_le_length
    simp [work, t, hstack, hpool', jobsWork, unforced, frameWork, Server.draining,
      stackWork_cons] at hclose hrest ⊢
    omega

theorem forceCheck_pays (h : Ok s .nothing (.forceCheck a)) :
    Pays real s (forceCheck { s with stack := [.force] } a) := by
  have hstack : s.stack = [.forceCheck a, .force] := h.ground.stack
  have hmem : a ∉ s.pool := h.ground.footing
  unfold forceCheck
  split
  next hhead => exact absurd (List.mem_of_head? hhead) hmem
  next =>
    refine (costs_ok (Uses.refl _)).pays ?_ ⟨by simp, by simp [hstack, ofDestroy]⟩
    have hall : s.pool.countP (fun b => !decide (b = a)) = s.pool.length := by
      rw [List.countP_eq_length]
      intro b hb
      rw [Bool.not_eq_true', decide_eq_false_iff_not]
      rintro rfl
      exact hmem hb
    simp [work, hstack, jobsWork, unforced, frameWork, Server.draining, hall]

theorem destroy_pays (h : Ok s .nothing (.destroy i)) :
    Pays real s (selectorDestroy { s with stack := [] } i) := by
  have hstack : s.stack = [.destroy i] := h.ground.stack
  unfold selectorDestroy
  split
  next hlt =>
    refine (selectorUnregisterFd_bounded (s := { s with stack := [.destroy (i + 1)] })).pays ?_
      ⟨by simp, by simp [ofDestroy]⟩
    simp [work, hstack, jobsWork, unforced, frameWork, Server.draining]
    omega
  next =>
    refine (costs_ok (Uses.refl { s with stack := [.destroyJobs] })).pays ?_
      ⟨by simp, by simp [ofDestroy]⟩
    simp [work, hstack, jobsWork, unforced, frameWork, Server.draining]

theorem destroyJobs_pays (h : Ok s .nothing .destroyJobs) :
    Pays real s (destroyJobs { s with stack := [] }) := by
  have hstack : s.stack = [.destroyJobs] := h.ground.stack
  unfold destroyJobs
  split
  next hjobs =>
    have hjobs' : s.jobs = [] := hjobs
    refine (costs_ok (Uses.refl { s with stack := [.ended] })).pays ?_
      ⟨fun _ => Or.inr hjobs', by simp [ofDestroy]⟩
    simp [work, hstack, jobsWork, unforced, frameWork, Server.draining]
  next j js hjobs =>
    have hjobs' : s.jobs = j :: js := hjobs
    refine release_job_pays (t := { s with stack := [] }) [.destroyJobs] js ?_
      ⟨by simp [Server.push], fun _ => ⟨.destroyJobs, by simp [Server.push], rfl⟩⟩
    simp [work, hstack, hjobs', jobsWork, unforced, frameWork, Server.draining, Server.push]

/-- What the main thread does next of what it has begun. -/
theorem runFrame_pays (h : Ok s d b) (hstack : s.stack = f :: fs) (hended : f ≠ .ended) :
    Pays (Docile k ∧ Unheld s) s (runFrame { s with stack := fs } k f) := by
  by_cases hcall : isLoop f = false
  · refine (call_costs h hstack hcall And.left And.right).pays ?_ (onward_pop hstack hcall)
    have hpop := work_pop hstack hcall
    have hpos := frameWork_pos (s := s) hcall
    omega
  · have hframes : f :: fs = d.frames ++ b.frames := hstack.symm.trans h.ground.stack
    have hd : d = .nothing := by
      cases d with
      | nothing => rfl
      | _ =>
        obtain ⟨rfl, -⟩ := List.cons.inj hframes
        exact absurd rfl hcall
    subst hd
    cases b with
    | idle => exact absurd hframes (by simp [Doing.frames, Bottom.frames])
    | notifications =>
      obtain ⟨rfl, rfl⟩ := List.cons.inj hframes
      exact notifications_pays h And.left And.right
    | cleanup =>
      obtain ⟨rfl, rfl⟩ := List.cons.inj hframes
      exact cleanup_pays h
    | force =>
      obtain ⟨rfl, rfl⟩ := List.cons.inj hframes
      exact force_pays h And.right
    | forceCheck a =>
      obtain ⟨rfl, rfl⟩ := List.cons.inj hframes
      exact forceCheck_pays h
    | destroy i =>
      obtain ⟨rfl, rfl⟩ := List.cons.inj hframes
      exact destroy_pays h
    | destroyJobs =>
      obtain ⟨rfl, rfl⟩ := List.cons.inj hframes
      exact destroyJobs_pays h
    | ended =>
      obtain ⟨rfl, rfl⟩ := List.cons.inj hframes
      exact absurd rfl hended
    | clearDestroy fd data =>
      obtain ⟨rfl, rfl⟩ := List.cons.inj hframes
      exact absurd rfl hcall
    | clearOther fd data =>
      obtain ⟨rfl, rfl⟩ := List.cons.inj hframes
      exact absurd rfl hcall
    | closeOther fd =>
      obtain ⟨rfl, rfl⟩ := List.cons.inj hframes
      exact absurd rfl hcall

end Loops

section Workers

/-- A worker has gone on, and nothing is queued. -/
theorem work_moved {st : WorkerState} (hclose : ∀ a, closable t a = true → closable s a = true)
    (hi : s.workers[i]? = some w) (hworkers : t.workers = s.workers.set i { w with state := st })
    (hpool : t.pool = s.pool) (hjobs : t.jobs = s.jobs) (hstack : t.stack = s.stack)
    (hlt : workerWork st < workerWork w.state) : work t < work s := by
  have hset := workersWork_set hi st
  have hmono := stackWork_mono hclose s.stack
  have hdraining : t.draining = s.draining := by rw [Server.draining, hstack, Server.draining]
  have hjobs' : jobsWork t = jobsWork s := by
    unfold jobsWork
    rw [hdraining, hjobs, hstack]
  have hpool' : unforced t = unforced s := by
    unfold unforced
    rw [hpool, hstack]
  unfold work
  rw [hworkers, hstack, hjobs', hpool']
  omega

theorem setWorker_pays {st : WorkerState} (hi : s.workers[i]? = some w)
    (hlt : workerWork st < workerWork w.state) : work (setWorker s i w st) < work s :=
  work_moved (fun _ h => h) hi rfl rfl rfl rfl hlt

theorem workerFinish_pays {error : ℤ} {result : List AddrInfo} (hi : s.workers[i]? = some w)
    (hw : w.state = .resolving) (ht : workerFinish s i w error result = .ok t) :
    work t < work s := by
  unfold workerFinish at ht
  split at ht
  next => cases ht
  next =>
    split at ht
    next => cases ht
    next o ho =>
      have hset : ∀ u : Server, (∃ o' : Socks5, u.heap = Function.update s.heap w.socks (some o') ∧
          o'.closing = o.closing) → ∀ c, closable u c = true → closable s c = true := by
        rintro u ⟨o', hu, hclosing⟩ c hc
        have huses : Uses 0 s (s.set w.socks o') := uses_set ho fun h => hclosing.trans h
        apply huses.closable c
        unfold closable at hc ⊢
        rwa [hu] at hc
      dsimp only at ht
      split at ht <;>
        · rw [← Except.ok.inj ht]
          split <;>
            exact work_moved (hset _ ⟨_, rfl, rfl⟩) hi rfl rfl rfl rfl (by simp [workerWork, hw])

theorem notify_pays {queued : Bool} (hi : s.workers[i]? = some w) (hw : w.state = .notifying)
    (ht : selectorNotifyBlockDone s i w queued = .ok t) : work t < work s := by
  unfold selectorNotifyBlockDone at ht
  split at ht
  next =>
    split at ht
    next => cases ht
    next =>
      split at ht
      next => cases ht
      next hdraining =>
        rw [← Except.ok.inj ht]
        let u : Server := { setWorker s i w (.unlocking true) with
          jobs := { fd := w.clientFd, data := w.socks, lookup := w.lookup } :: s.jobs }
        have hset : workersWork u.workers + workerWork w.state =
          workersWork s.workers + workerWork (.unlocking true) := workersWork_set hi _
        have hcalls : stackWork u s.stack = stackWork s s.stack := stackWork_heap rfl s.stack
        have hidle : s.draining = false := by simpa using hdraining
        have hidle' : u.draining = false := hidle
        have hjobs : jobsWork u = jobsWork s + 2 := by
          rw [jobsWork, jobsWork, hidle, hidle']
          simp only [u, Bool.false_eq_true, if_false, List.length_cons]
          omega
        have hpool : unforced u = unforced s := rfl
        show work u < work s
        simp only [hw, workerWork] at hset
        rw [work, work, hjobs, hpool, show u.stack = s.stack from rfl, hcalls]
        omega
  next =>
    rw [← Except.ok.inj ht]
    exact setWorker_pays hi (by simp [workerWork, hw])

theorem dnsWorker_pays (hi : s.workers[i]? = some w) {k : WorkerStep}
    (ht : dnsWorker s i w k = .ok t) : work t < work s := by
  cases k with
  | finish error result =>
    simp only [dnsWorker] at ht
    split at ht
    next hw => exact workerFinish_pays hi hw ht
    next => cases ht
  | notify queued =>
    simp only [dnsWorker] at ht
    split at ht
    next hw => exact notify_pays hi hw ht
    next => cases ht
  | unlock =>
    simp only [dnsWorker] at ht
    split at ht
    next queued hw =>
      split at ht
      next =>
        rw [← Except.ok.inj ht]
        refine setWorker_pays hi ?_
        cases queued <;> simp [workerWork, hw]
      next => cases ht
    next => cases ht
  | release =>
    simp only [dnsWorker] at ht
    split at ht
    next r hw =>
      have hrelease : Costs True 0 s (socks5Release s w.socks) := socks5Release_costs
      cases hres : socks5Release s w.socks with
      | error e =>
        rw [hres] at ht
        cases ht
      | ok u =>
        rw [hres] at ht
        rw [← Except.ok.inj ht]
        have huses := hrelease.1 u hres
        have hle := huses.work_le
        have hstill : u.workers = s.workers := by
          unfold socks5Release at hres
          split at hres
          next => cases hres
          next =>
            split at hres
            next => cases hres
            next => rw [← Except.ok.inj hres]; rfl
            next => rw [← Except.ok.inj hres]; rfl
        have hlt : work (setWorker u i w (.freeing r)) < work u :=
          setWorker_pays (hstill ▸ hi) (by simp [workerWork, hw])
        show work (setWorker u i w (.freeing r)) < work s
        omega
    next => cases ht
  | exit =>
    simp only [dnsWorker] at ht
    split at ht
    next hw =>
      rw [← Except.ok.inj ht]
      exact setWorker_pays hi (by simp [workerWork, hw])
    next r hw =>
      rw [← Except.ok.inj ht]
      exact work_moved (fun _ h => h) hi rfl rfl rfl rfl (by simp [workerWork, hw])
    next => cases ht

end Workers

section Rest

theorem works_pays {e : Event} (h : Sound s) (hworks : Works s e t) : work t < work s := by
  obtain ⟨hinternal, hstep⟩ := hworks
  have hstep' : step s e = .ok t := hstep
  obtain ⟨d, b, hok⟩ := h
  cases e with
  | run k =>
    rw [step] at hstep'
    split at hstep'
    next => cases hstep'
    next f fs hstack =>
      have hended : f ≠ .ended := by
        rintro rfl
        cases hstep'
      exact ((runFrame_pays hok hstack hended).1 t hstep').1
  | worker i k =>
    rw [step] at hstep'
    split at hstep'
    next => cases hstep'
    next w hi => exact dnsWorker_pays hi hstep'
  | _ => exact absurd hinternal (by simp [internal])

theorem works_sound {e : Event} (h : Sound s) (hworks : Works s e t) : Sound t :=
  Sound.step h hworks.2

/-- In whatever order the main thread and the workers go on, and whatever the kernel
answers them, they do so only a bounded number of times before something new arrives. -/
theorem work_bounds_runs (h : Reachable s) {es : List Event} (hrun : Run Works s es t) :
    es.length + work t ≤ work s :=
  hrun.length_add_le (reachable_ok h) works_sound works_pays

theorem work_bounds_runs_asked : ∃ s t, play serverInit (asks 1 5) = .ok s ∧
    Run Works s (finds 0) t ∧ (finds 0).length + work t ≤ work s := by
  have hrun : ∀ s t, play s (finds 0) = .ok t → Run Works s (finds 0) t := by
    intro s t ht
    exact (play_run ht).guarded (by simp [finds, internal])
  exact ⟨_, _, rfl, hrun _ _ rfl,
    work_bounds_runs (reachable_play (asks 1 5) rfl) (hrun _ _ rfl)⟩

/-- The main thread waits in the selector or has left selector_destroy, and the
workers have exited. -/
structure AtRest (s : Server) : Prop where
  main : s.stack = [] ∨ s.stack = [.ended]
  workers : ∀ w ∈ s.workers, w.state = .exited

/-- Every step that is not taken is held up or a fault, which does not happen. -/
theorem ok_of_step (h : Sound s) (e : Event)
    (hstep : ∀ x, step s e = .error x → x = .fault) : ∃ t, step s e = .ok t := by
  cases hres : step s e with
  | ok t => exact ⟨t, rfl⟩
  | error x =>
    rw [hstep x hres] at hres
    exact absurd hres (h.no_fault e)

/-- malloc has given the worker its job: only then does it wait for resolution_mutex. -/
def allocates : Event → Bool
  | .worker _ (.notify queued) => queued
  | _ => true

/-- A step of a thread that does not count on malloc to fail. -/
def Goes : Server → Event → Server → Prop := Guarded Works fun _ e => allocates e = true

theorem docile_plain : Docile plain := ⟨fun _ => ⟨_, rfl⟩, by simp [plain]⟩

/-- The main thread goes on with what it has begun, unless a worker has the dns_mutex that
it takes next. -/
theorem main_goes (h : Sound s) (hstack : s.stack = f :: fs) (hended : f ≠ .ended)
    (hfree : Unheld s) : ∃ e t, Goes s e t := by
  have hstep : step s (.run plain) = runFrame { s with stack := fs } plain f := by
    rw [step, hstack]
  obtain ⟨t, ht⟩ : ∃ t, step s (.run plain) = .ok t := by
    refine ok_of_step h _ ?_
    intro x hx
    obtain ⟨d, b, hok⟩ := h
    exact (runFrame_pays hok hstack hended).2 x (hstep ▸ hx) ⟨docile_plain, hfree⟩
  exact ⟨_, t, rfl, rfl, ht⟩

/-- A worker whose outcome has left it waits for nobody. -/
theorem landed_goes (h : Sound s) (hi : s.workers[i]? = some w) (hw : w.state ≠ .exited)
    (hlanded : w.state.flying = false) : ∃ e t, Goes s e t := by
  cases hstate : w.state with
  | resolving | notifying =>
    rw [hstate] at hlanded
    cases hlanded
  | unlocking queued =>
    obtain ⟨t, ht⟩ : ∃ t, step s (.worker i .unlock) = .ok t := by
      refine ok_of_step h _ ?_
      intro x hx
      simp only [step, hi, dnsWorker, hstate] at hx
      split at hx
      next => cases hx
      next => exact (Except.error.inj hx).symm
    exact ⟨_, t, rfl, rfl, ht⟩
  | releasing r =>
    obtain ⟨t, ht⟩ : ∃ t, step s (.worker i .release) = .ok t := by
      refine ok_of_step h _ ?_
      intro x hx
      simp only [step, hi, dnsWorker, hstate] at hx
      unfold socks5Release at hx
      split at hx
      next => exact (Except.error.inj hx).symm
      next =>
        split at hx
        next => exact (Except.error.inj hx).symm
        next => cases hx
        next => cases hx
    exact ⟨_, t, rfl, rfl, ht⟩
  | freeing r =>
    obtain ⟨t, ht⟩ : ∃ t, step s (.worker i .exit) = .ok t := by
      simp only [step, hi, dnsWorker, hstate]
      cases r <;> exact ⟨_, rfl⟩
    exact ⟨_, t, rfl, rfl, ht⟩
  | exited => exact absurd hstate hw

theorem held_of_not_unheld (h : ¬ Unheld s) : ∃ a, atDns s = some a ∧ s.locked a = true := by
  unfold Unheld at h
  push Not at h
  obtain ⟨a, hat, hheld⟩ := h
  exact ⟨a, hat, by simpa using hheld⟩

theorem not_exited_of_locks (hlocks : w.state.locks = true) : w.state ≠ .exited := by
  intro hstate
  rw [hstate] at hlocks
  cases hlocks

/-- While the main thread has resolution_mutex, it goes on, or the worker whose dns_mutex it
waits for does: that worker has queued its job, and does not ask for resolution_mutex. -/
theorem draining_goes (h : Sound s) (hdraining : s.draining = true) : ∃ e t, Goes s e t := by
  by_cases hfree : Unheld s
  · cases hstack : s.stack with
    | nil => simp [Server.draining, hstack] at hdraining
    | cons f fs =>
      refine main_goes h hstack ?_ hfree
      rintro rfl
      obtain ⟨d, b, hok⟩ := h
      have hframes : Frame.ended :: fs = d.frames ++ b.frames :=
        hstack.symm.trans hok.ground.stack
      rcases (draining_iff hok).mp hdraining with rfl | rfl <;>
        cases d <;> simp [Doing.frames, Bottom.frames] at hframes
  · obtain ⟨a, hat, hheld⟩ := held_of_not_unheld hfree
    obtain ⟨w, hw, hboth⟩ := List.any_eq_true.mp hheld
    rw [Bool.and_eq_true, decide_eq_true_eq] at hboth
    obtain ⟨hsocks, hlocks⟩ := hboth
    obtain ⟨i, hi⟩ := List.mem_iff_getElem?.mp hw
    obtain ⟨d, b, hok⟩ := h
    exact landed_goes ⟨d, b, hok⟩ hi (not_exited_of_locks hlocks)
      (landed hok hdraining hat hi hsocks)

/-- A worker that has a dns_mutex gets resolution_mutex, and lets it go. -/
theorem locks_goes (h : Sound s) (hi : s.workers[i]? = some w) (hlocks : w.state.locks = true) :
    ∃ e t, Goes s e t := by
  by_cases hdraining : s.draining = true
  · exact draining_goes h hdraining
  · cases hstate : w.state with
    | notifying =>
      obtain ⟨t, ht⟩ : ∃ t, step s (.worker i (.notify true)) = .ok t := by
        refine ok_of_step h _ ?_
        intro x hx
        simp only [step, hi, dnsWorker, hstate, if_true, selectorNotifyBlockDone,
          if_neg hdraining] at hx
        split at hx
        next => exact (Except.error.inj hx).symm
        next => cases hx
      exact ⟨_, t, rfl, rfl, ht⟩
    | unlocking | releasing | freeing | exited | resolving =>
      refine landed_goes h hi (not_exited_of_locks hlocks) ?_
      rw [hstate] at hlocks ⊢
      first | rfl | cases hlocks

theorem held_goes (h : Sound s) (hheld : s.locked a = true) : ∃ e t, Goes s e t := by
  obtain ⟨w, hw, hboth⟩ := List.any_eq_true.mp hheld
  rw [Bool.and_eq_true] at hboth
  obtain ⟨i, hi⟩ := List.mem_iff_getElem?.mp hw
  exact locks_goes h hi hboth.2

/-- A worker that has not exited can go on, or waits for a thread that can. -/
theorem worker_goes (h : Sound s) (hi : s.workers[i]? = some w) (hw : w.state ≠ .exited) :
    ∃ e t, Goes s e t := by
  cases hstate : w.state with
  | resolving =>
    cases hheld : s.locked w.socks with
    | true => exact held_goes h hheld
    | false =>
      obtain ⟨t, ht⟩ : ∃ t, step s (.worker i (.finish 1 [])) = .ok t := by
        refine ok_of_step h _ ?_
        intro x hx
        simp only [step, hi, dnsWorker, hstate, if_true, workerFinish, hheld, Bool.false_eq_true,
          if_false] at hx
        split at hx
        next => exact (Except.error.inj hx).symm
        next => split at hx <;> cases hx
      exact ⟨_, t, rfl, rfl, ht⟩
  | notifying =>
    refine locks_goes h hi ?_
    rw [hstate]
    rfl
  | unlocking | releasing | freeing =>
    refine landed_goes h hi hw ?_
    rw [hstate]
    rfl
  | exited => exact absurd hstate hw

/-- When no thread can go on, the server is at rest: a call of the main thread that is
held up waits for a worker that is not. -/
theorem rest_of_stuck (h : Sound s) (hstuck : ∀ e t, ¬ Goes s e t) : AtRest s := by
  have hnone : ¬ ∃ e t, Goes s e t := fun ⟨e, t, hgoes⟩ => hstuck e t hgoes
  refine ⟨?_, ?_⟩
  · cases hstack : s.stack with
    | nil => exact Or.inl rfl
    | cons f fs =>
      by_cases hended : f = .ended
      · subst hended
        obtain ⟨d, b, hok⟩ := h
        have hframes := hstack.symm.trans hok.ground.stack
        refine Or.inr ?_
        cases d <;> cases b <;> simp_all [Doing.frames, Bottom.frames]
      · exfalso
        by_cases hfree : Unheld s
        · exact hnone (main_goes h hstack hended hfree)
        · obtain ⟨a, -, hheld⟩ := held_of_not_unheld hfree
          exact hnone (held_goes h hheld)
  · intro w hw
    by_contra hstate
    obtain ⟨i, hi⟩ := List.mem_iff_getElem?.mp hw
    exact hnone (worker_goes h hi hstate)

/-- At rest neither the main thread nor a worker has anything to do. -/
theorem AtRest.stuck (h : AtRest s) (e : Event) (t : Server) : ¬ Works s e t := by
  rintro ⟨hinternal, hstep⟩
  have hstep' : step s e = .ok t := hstep
  cases e with
  | run k =>
    rcases h.main with hmain | hmain
    · simp [step, hmain] at hstep'
    · simp [step, hmain, runFrame] at hstep'
  | worker i k =>
    rw [step] at hstep'
    split at hstep'
    next => cases hstep'
    next w hi =>
      have hstate := h.workers w (List.mem_of_getElem? hi)
      cases k <;> simp [dnsWorker, hstate] at hstep'
  | _ => exact absurd hinternal (by simp [internal])

/-- As long as the server is not at rest, one of its threads can go on, also where malloc
does not fail: nobody waits for a mutex for ever. -/
theorem rests_iff (h : Reachable s) : (∀ e t, ¬ Goes s e t) ↔ AtRest s :=
  ⟨rest_of_stuck (reachable_ok h), fun hrest e t hgoes => hrest.stuck e t hgoes.2⟩

/-- A worker has queued its job and not yet unlocked, and the main thread comes to the job. -/
theorem rests_iff_asked : ∃ s, play serverInit (asks 1 5 ++
    [.worker 0 (.finish 0 []), .worker 0 (.notify true), .notifications]) = .ok s ∧
    atDns s = some 1 ∧ s.locked 1 = true ∧ ¬ AtRest s ∧ ∃ e t, Goes s e t := by
  refine ⟨_, rfl, rfl, rfl, ?_, ?_⟩
  · rintro ⟨-, hworkers⟩
    exact absurd (hworkers _ (List.mem_singleton.mpr rfl)) (by simp)
  · by_contra hnone
    push Not at hnone
    have hrest := (rests_iff (reachable_play (asks 1 5 ++
      [.worker 0 (.finish 0 []), .worker 0 (.notify true), .notifications]) rfl)).mp hnone
    exact absurd (hrest.workers _ (List.mem_singleton.mpr rfl)) (by simp)

end Rest

end SocksProxy.ServerWork
