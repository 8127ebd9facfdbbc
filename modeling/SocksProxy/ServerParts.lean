import SocksProxy.ServerLookups
import SocksProxy.ServerPool

/-!
The books of the server together: references, sockets, lists of addresses,
lookups, entries and pool. Each operation of the server keeps them all; what it
does to a connection is in the statement, the rest stays as it was.
-/
namespace SocksProxy.ServerParts

open Kernel Ledgers ServerState ServerSteps ServerRefs ServerSockets ServerLookups
open ServerEntries ServerPool
open ConnState (FdInterest)
open MonServer (metricsConnectionClosed)

variable {s t : Server} {borrowed : Option ℕ} {jobs pending : List BlockingJob}
variable {clearing : List ℕ} {a b fd i : ℕ} {o o' : Socks5} {side : Side} {it : Item} {sk : Socket}
variable {w : DnsWorker} {st : WorkerState}

/-- What is left of a connection whose initial reference is released. -/
structure Gone (o : Socks5) : Prop where
  closing : o.closing = true
  cancelled : o.cancelled = true
  fds : ∀ side, sideFd side o = none
  unregistered : ∀ side, sideRegistered side o = false

/-- `jobs` are the queued jobs that hold a reference, `pending` those that have
not been taken up. -/
structure Parts (borrowed : Option ℕ) (s : Server) (jobs pending : List BlockingJob)
    (clearing : List ℕ) : Prop where
  refs : RefsOk borrowed s.heap s.workers jobs s.books.states s.books.owners s.accepted
  sockets : SocketsOk none s.heap s.fds s.books.sockets
  results : ResultsOk s.heap s.workers s.books.results
  lookups : LookupsOk s.heap s.workers pending s.books.blockDone
  entries : EntriesOk s.heap s.fds s.items s.books.registrations clearing
  pool : PoolOk s.heap s.pool s.poolSize s.metrics s.books.added s.books.removed s.books.written
  gone : ∀ a o, s.heap a = some o → o.released = true → Gone o

/-- `o'` has what `o` has; only what the handlers and the lookups note down differs. -/
structure Tame (o o' : Socks5) : Prop where
  serial : o'.serial = o.serial
  references : o'.references = o.references
  released : o'.released = o.released
  clientFd : o'.clientFd = o.clientFd
  originFd : o'.originFd = o.originFd
  clientRegistered : o'.clientRegistered = o.clientRegistered
  originRegistered : o'.originRegistered = o.originRegistered

/-- `o` without the descriptor of `side`. -/
def dropFd (side : Side) (o : Socks5) : Socks5 :=
  match side with
  | .client => { o with clientFd := none }
  | .origin => { o with originFd := none }

/-- The workers, their jobs and the calls of the main thread are left alone. -/
structure Calm (s t : Server) : Prop where
  workers : t.workers = s.workers
  jobs : t.jobs = s.jobs
  stack : t.stack = s.stack

/-- The table, the descriptors, the pool and the stack are left alone. -/
structure Still (s t : Server) : Prop where
  items : t.items = s.items
  fds : t.fds = s.fds
  pool : t.pool = s.pool
  stack : t.stack = s.stack

theorem gone_update (h : ∀ a o, s.heap a = some o → o.released = true → Gone o)
    (hnew : o'.released = true → Gone o') (b : ℕ) (p : Socks5)
    (hp : Function.update s.heap a (some o') b = some p) (hreleased : p.released = true) :
    Gone p := by
  rcases update_some hp with ⟨-, rfl⟩ | ⟨-, hp⟩
  · exact hnew hreleased
  · exact h b p hp hreleased

theorem Tame.gone (htame : Tame o o') (hgone : Gone o) (hclosing : o'.closing = true)
    (hcancelled : o'.cancelled = true) : Gone o' where
  closing := hclosing
  cancelled := hcancelled
  fds := by
    intro side
    have hside := hgone.fds side
    cases side with
    | client => exact htame.clientFd.trans hside
    | origin => exact htame.originFd.trans hside
  unregistered := by
    intro side
    have hside := hgone.unregistered side
    cases side with
    | client => exact htame.clientRegistered.trans hside
    | origin => exact htame.originRegistered.trans hside

section Calls

theorem owned_eq (ho : s.heap a = some o) (hopen : o.released = false)
    (k : Socks5 → Except Halt Server) : s.owned a k = k o := by
  unfold Server.owned
  rw [ho]
  simp [hopen]

theorem unregisterFd_eq (hit : s.items fd = some it) :
    selectorUnregisterFd s fd = handleClose
      { s with
        stack := .clear fd it.data :: s.stack
        books := { s.books with
          registrations := s.books.registrations.settle it.registration } } fd it := by
  unfold selectorUnregisterFd
  rw [hit]

theorem handleClose_client (hhandler : it.handler = .socksv5) (hdata : it.data = some a) :
    handleClose s fd it = socksv5Close s fd a := by
  simp only [handleClose, hhandler, hdata]

theorem handleClose_origin (hhandler : it.handler = .origin) (hdata : it.data = some a) :
    handleClose s fd it = originConnectClose s fd a := by
  simp only [handleClose, hhandler, hdata]

theorem handleClose_other (hhandler : it.handler = .other) :
    handleClose s fd it = .ok (monClose s it.data) := by
  simp only [handleClose, hhandler]

theorem poolRemove_eq (hmem : a ∈ s.pool)
    (hlive : (s.pool.all fun b => (s.heap b).any fun o => !o.released) = true) :
    socksv5PoolRemove s a = .ok { s with
      pool := s.pool.erase a
      poolSize := s.poolSize - 1
      metrics := metricsConnectionClosed s.metrics
      books := { s.books with removed := s.books.removed + 1 } } := by
  unfold socksv5PoolRemove
  rw [if_pos hlive, if_pos hmem]

theorem socksv5Close_eq (ho : s.heap a = some o) (hopen : o.released = false)
    (hfd : o.clientFd = some fd) :
    socksv5Close s fd a = socksv5PoolRemove
      ((s.set a { o with clientRegistered := false }).push [.connectionClose a]) a := by
  unfold socksv5Close
  rw [owned_eq ho hopen, if_pos hfd]

theorem originConnectClose_eq (ho : s.heap a = some o) (hopen : o.released = false)
    (hfd : o.originFd = some fd) :
    originConnectClose s fd a = .ok (s.set a { o with originRegistered := false }) := by
  unfold originConnectClose
  rw [owned_eq ho hopen, if_pos hfd]

theorem sysClose_eq (hsk : s.fds fd = some sk) :
    sysClose s fd = .ok { s with
      fds := Function.update s.fds fd none
      books := { s.books with sockets := s.books.sockets.settle sk } } := by
  unfold sysClose
  rw [hsk]

end Calls

namespace Parts

theorem stack (h : Parts borrowed s jobs pending clearing) (fs : List Frame) :
    Parts borrowed { s with stack := fs } jobs pending clearing :=
  ⟨h.refs, h.sockets, h.results, h.lookups, h.entries, h.pool, h.gone⟩

theorem queue (h : Parts borrowed s jobs pending clearing) (js : List BlockingJob) :
    Parts borrowed { s with jobs := js } jobs pending clearing :=
  ⟨h.refs, h.sockets, h.results, h.lookups, h.entries, h.pool, h.gone⟩

/-- A connection notes something down. -/
theorem set (h : Parts borrowed s jobs pending clearing) (ho : s.heap a = some o)
    (htame : Tame o o') (hresult : o'.dnsResult = o.dnsResult)
    (hcancelled : o'.cancelled = o.cancelled ∨ o'.cancelled = true ∧ s.locked a = false)
    (hclosing : o'.closing = false → o.closing = false) :
    Parts borrowed (s.set a o') jobs pending clearing where
  refs := h.refs.set ho (by
    unfold RefsOk.key
    rw [htame.serial, htame.references, htame.released])
  sockets := h.sockets.set ho (by
    unfold SocketsOk.key
    rw [htame.serial, htame.clientFd, htame.originFd])
  results := h.results.set ho hresult
  lookups := by
    apply h.lookups.set ho _ (fun hopen => ⟨hclosing hopen, htame.clientFd⟩) (Or.inl hresult)
    refine hcancelled.imp_right ?_
    rintro ⟨htrue, hlocked⟩
    refine ⟨htrue, ?_⟩
    intro i w hi hsocks
    by_contra hlocks
    have hany : s.locked a = true :=
      List.any_eq_true.mpr ⟨w, List.mem_of_getElem? hi, by simp [hsocks, hlocks]⟩
    rw [hany] at hlocked
    exact absurd hlocked (by simp)
  entries := h.entries.set ho (EntriesOk.alike_of_eq htame.serial htame.clientFd htame.originFd
    htame.clientRegistered htame.originRegistered)
  pool := h.pool.set ho htame.clientRegistered
  gone := by
    apply gone_update h.gone
    intro hreleased
    have hgone := h.gone a o ho (htame.released ▸ hreleased)
    apply htame.gone hgone
    · by_contra hopen
      have hopen' := hclosing (by simpa using hopen)
      rw [hgone.closing] at hopen'
      exact absurd hopen' (by simp)
    · rcases hcancelled with heq | ⟨htrue, -⟩
      · exact heq.trans hgone.cancelled
      · exact htrue

theorem interest (h : Parts borrowed s jobs pending clearing) (fd : Option ℕ) (i : FdInterest) :
    Parts borrowed (selectorSetInterest s fd i) jobs pending clearing := by
  cases fd with
  | none => exact h
  | some fd =>
    exact ⟨h.refs, h.sockets, h.results, h.lookups, h.entries.interest fd i, h.pool, h.gone⟩

/-- The number of a descriptor that was just opened has no entry. -/
theorem entry_none (h : Parts borrowed s jobs pending []) (hfd : s.fds fd = none) :
    s.items fd = none := by
  cases hit : s.items fd with
  | none => rfl
  | some it =>
    by_cases hother : it.handler = .other
    · obtain ⟨-, sk, hsk, -⟩ := h.entries.other fd it hit List.not_mem_nil hother
      rw [hfd] at hsk
      exact absurd hsk (by simp)
    · obtain ⟨side, b, p, -, -, hp, -, hpfd, -⟩ := h.entries.entry fd it hit List.not_mem_nil hother
      obtain ⟨sk, hsk, -⟩ := h.sockets.stored_open b p side fd hp hpfd
      rw [hfd] at hsk
      exact absurd hsk (by simp)

/-- A descriptor is opened and closed again. -/
theorem pass (h : Parts borrowed s jobs pending clearing) (hfd : s.fds fd = none)
    (owner : Option ℕ) (side : Side) :
    ∃ t, sysClose (sysOpen s fd owner side) fd = .ok t ∧
      Parts borrowed t jobs pending clearing ∧ t.heap = s.heap ∧ Calm s t := by
  let sk : Socket := { owner := owner, side := side, n := s.books.sockets.issued.length }
  let u := sysOpen s fd owner side
  have hopen : u.fds fd = some sk := Function.update_self _ _ _
  have hback : Function.update (Function.update s.fds fd (some sk)) fd none = s.fds := by
    rw [Function.update_idem, ← hfd, Function.update_eq_self]
  have hopened : SocketsOk (some fd) s.heap (Function.update s.fds fd (some sk))
      (s.books.sockets.issue sk) := h.sockets.opens hfd rfl
  have hsockets := hopened.closes (Function.update_self _ _ _)
  rw [hback] at hsockets
  refine ⟨_, sysClose_eq hopen, ⟨h.refs, ?_, h.results, h.lookups, ?_, h.pool, h.gone⟩, rfl,
    ⟨rfl, rfl, rfl⟩⟩
  · show SocketsOk none s.heap (Function.update (Function.update s.fds fd (some sk)) fd none) _
    rw [hback]
    exact hsockets
  · show EntriesOk s.heap (Function.update (Function.update s.fds fd (some sk)) fd none) _ _ _
    rw [hback]
    exact h.entries

theorem entries_open (h : Parts borrowed s jobs pending clearing) (hfd : s.fds fd = none)
    (sk : Socket) :
    EntriesOk s.heap (Function.update s.fds fd (some sk)) s.items s.books.registrations
      clearing := by
  apply h.entries.fds_change
  intro e it sk' _ _ hsk _
  have hne : e ≠ fd := by
    rintro rfl
    rw [hfd] at hsk
    exact absurd hsk (by simp)
  rw [Function.update_of_ne hne]
  exact hsk

/-- What register_origin_connect leaves: the origin's socket is registered, or closed. -/
inductive Dialed (s : Server) (a : ℕ) (o : Socks5) : Status → Server → Prop
  | failed (e : Errno) {t : Server} (hheap : t.heap = s.heap) : Dialed s a o (.failed e) t
  | opened (fd : ℕ) {status : Status} {t : Server} (hstatus : ∀ e, status ≠ .failed e)
      (hheap : t.heap = Function.update s.heap a
        (some { o with originFd := some fd, originRegistered := true })) : Dialed s a o status t

/-- selector_register of the origin's new socket, which is stored with it. -/
theorem registered (h : Parts none s jobs pending []) (ho : s.heap a = some o)
    (hopen : o.released = false) (hnone : o.originFd = none) (hunreg : o.originRegistered = false)
    (hfd : s.fds fd = none) {i : FdInterest} {p : Socks5}
    (hr : selectorRegister ((sysOpen s fd (some o.serial) .origin).set a p) fd .origin i (some a)
      (some o.serial) = some t) :
    Parts none (t.set a { o with originFd := some fd, originRegistered := true }) jobs pending [] ∧
      Calm s t ∧ t.heap = Function.update s.heap a (some p) := by
  let o' : Socks5 := { o with originFd := some fd, originRegistered := true }
  let sk : Socket :=
    { owner := some o.serial, side := .origin, n := s.books.sockets.issued.length }
  unfold selectorRegister at hr
  split at hr
  · exact absurd hr (by simp)
  next hok =>
    rw [not_or, not_le] at hok
    obtain rfl := Option.some.inj hr
    refine ⟨?_, ⟨rfl, rfl, rfl⟩, rfl⟩
    have hheap : Function.update (Function.update s.heap a (some p)) a (some o') =
        Function.update s.heap a (some o') := Function.update_idem _ _ _
    have hparts : Parts none { s with
        heap := Function.update s.heap a (some o')
        fds := Function.update s.fds fd (some sk)
        items := Function.update s.items fd (some ⟨.origin, i, some a,
          ⟨some o.serial, s.books.registrations.issued.length⟩⟩)
        books := { s.books with
          sockets := s.books.sockets.issue sk
          registrations := s.books.registrations.issue
            ⟨some o.serial, s.books.registrations.issued.length⟩ } } jobs pending [] := by
      refine ⟨?_, ?_, ?_, ?_, ?_, ?_, ?_⟩
      · exact h.refs.set ho rfl
      · have howner : sk.owner = some o'.serial := rfl
        apply (h.sockets.opens hfd rfl).store (Function.update_self _ _ _) howner rfl rfl
        refine Or.inr ⟨o, ho, rfl, hnone, ?_⟩
        intro d hd
        cases d with
        | client => rfl
        | origin => exact absurd rfl hd
      · exact h.results.set ho rfl
      · exact h.lookups.set ho (Or.inl rfl) (fun hopen => ⟨hopen, rfl⟩) (Or.inl rfl)
      · have hserial : o'.serial = o.serial := rfl
        have hreg : sideRegistered .origin o' = true := rfl
        have hstored : sideFd .origin o' = some fd := rfl
        have hold : sideRegistered .origin o = false := hunreg
        apply (h.entries_open hfd sk).register hok.1 (h.entry_none hfd) List.not_mem_nil ho rfl rfl
          rfl rfl hserial hreg hstored hold
        intro d hd
        cases d with
        | client => exact ⟨rfl, rfl⟩
        | origin => exact absurd rfl hd
      · exact h.pool.set ho rfl
      · apply gone_update h.gone
        intro hreleased
        exact absurd (hopen.symm.trans hreleased) (by simp)
    rw [← hheap] at hparts
    exact hparts

theorem dial (h : Parts none s jobs pending []) (ho : s.heap a = some o)
    (hopen : o.released = false) (hnone : o.originFd = none) (hunreg : o.originRegistered = false)
    (d : Dial) :
    registerOriginConnect s a d = .error .unreal ∨
      ∃ status t, registerOriginConnect s a d = .ok (status, t) ∧
        Parts none t jobs pending [] ∧ Calm s t ∧ Dialed s a o status t := by
  unfold registerOriginConnect
  rw [ho]
  dsimp only
  cases hsocket : d.socket with
  | error e => exact Or.inr ⟨_, s, rfl, h, ⟨rfl, rfl, rfl⟩, .failed e rfl⟩
  | ok fd =>
    dsimp only
    by_cases hused : (s.fds fd).isSome = true
    · rw [if_pos hused]
      exact Or.inl rfl
    rw [if_neg hused]
    have hfd : s.fds fd = none := by simpa using hused
    obtain ⟨u, hclose, hparts, hheap, hcalm⟩ := h.pass hfd (some o.serial) .origin
    cases hnio : d.setNio with
    | some e =>
      dsimp only
      rw [hclose]
      exact Or.inr ⟨_, u, rfl, hparts, hcalm, .failed e hheap⟩
    | none =>
      dsimp only
      split
      next e _ =>
        rw [hclose]
        exact Or.inr ⟨_, u, rfl, hparts, hcalm, .failed e hheap⟩
      next status hstatus =>
        split
        next hr =>
          -- the number is too large: the socket is closed again
          rw [hclose]
          have hsame : u.set a { o with originFd := none } = u := by
            unfold Server.set
            rw [← hnone, Function.update_eq_self_iff.mpr (by rw [hheap, ho])]
          refine Or.inr ⟨_, _, rfl, ?_, ?_, .failed .ECONNREFUSED ?_⟩
          · rw [hsame]
            exact hparts
          · rw [hsame]
            exact hcalm
          · rw [hsame]
            exact hheap
        next t hr =>
          obtain ⟨hparts, hcalm, hheap⟩ := h.registered ho hopen hnone hunreg hfd hr
          refine Or.inr ⟨_, _, rfl, hparts, ⟨hcalm.workers, hcalm.jobs, hcalm.stack⟩,
            .opened fd hstatus ?_⟩
          show Function.update t.heap a _ = _
          rw [hheap, Function.update_idem]

/-- Every member of the pool is alive, and has its initial reference. -/
theorem pool_live (h : Parts borrowed s jobs pending clearing) (hopen : o'.released = false) :
    (s.pool.all fun b =>
      (Function.update s.heap a (some o') b).any fun o => !o.released) = true := by
  refine List.all_eq_true.mpr ?_
  intro b hb
  obtain ⟨p, hp, hreg⟩ := (h.pool.mem_iff b).mp hb
  rw [some_update hp, Option.any_some]
  by_cases hba : b = a
  · rw [if_pos hba, hopen]
    rfl
  · rw [if_neg hba]
    by_contra hreleased
    have hunreg := (h.gone b p hp (by simpa using hreleased)).unregistered .client
    exact absurd (hreg.symm.trans hunreg) (by simp)

/-- selector_unregister_fd of the client's descriptor: the connection leaves the
pool, and its close is called. The caller may have noted the end before. -/
theorem unregister_client (h : Parts none s jobs pending clearing) (hit : s.items fd = some it)
    (hclear : fd ∉ clearing) (hhandler : it.handler = .socksv5) (hdata : it.data = some a)
    (ho : s.heap a = some o) (hopen : o.released = false) (fs : List Frame) {p : Socks5}
    (hp : { p with clientRegistered := false } = { o with clientRegistered := false }) :
    ∃ t, selectorUnregisterFd ((s.set a p).push fs) fd = .ok t ∧
      Parts none t jobs pending (fd :: clearing) ∧
      t.heap = Function.update s.heap a (some { o with clientRegistered := false }) ∧
      t.items = s.items ∧ t.workers = s.workers ∧ t.jobs = s.jobs ∧
      t.stack = .connectionClose a :: .clear fd (some a) :: (fs ++ s.stack) := by
  let o' : Socks5 := { o with clientRegistered := false }
  have hhandler' : it.handler = handlerOf .client := hhandler
  obtain ⟨q, hq, hreg, hfd, -⟩ := h.entries.belongs hit hclear hhandler' hdata
  obtain rfl := Option.some.inj (ho.symm.trans hq)
  have hmem : a ∈ s.pool := (h.pool.mem_iff a).mpr ⟨o, ho, hreg⟩
  have hpfd : p.clientFd = some fd := (congrArg Socks5.clientFd hp).trans hfd
  have hpopen : p.released = false := (congrArg Socks5.released hp).trans hopen
  let t : Server := { s with
    heap := Function.update s.heap a (some o')
    pool := s.pool.erase a
    poolSize := s.poolSize - 1
    metrics := metricsConnectionClosed s.metrics
    stack := .connectionClose a :: .clear fd (some a) :: (fs ++ s.stack)
    books := { s.books with
      registrations := s.books.registrations.settle it.registration
      removed := s.books.removed + 1 } }
  have hpool := pool_length h.pool h.entries
  refine ⟨t, ?_, ⟨?_, ?_, ?_, ?_, ?_, ?_, ?_⟩, rfl, rfl, rfl, rfl, rfl⟩
  · let u : Server := (s.set a p).push fs
    let v : Server := { u with
      stack := .clear fd (some a) :: u.stack
      books := { u.books with
        registrations := u.books.registrations.settle it.registration } }
    have hitu : u.items fd = some it := hit
    have hv : v.heap a = some p := Function.update_self _ _ _
    have hclose : selectorUnregisterFd u fd = socksv5Close v fd a := by
      rw [unregisterFd_eq hitu, handleClose_client hhandler hdata, hdata]
    have hback : (v.set a { p with clientRegistered := false }).heap =
        Function.update s.heap a (some o') := by
      show Function.update (Function.update s.heap a (some p)) a _ = _
      rw [hp, Function.update_idem]
    have hremove := poolRemove_eq (s := (v.set a { p with clientRegistered := false }).push
      [.connectionClose a]) hmem (by
        show (s.pool.all fun b => ((v.set a { p with clientRegistered := false }).heap b).any _) = _
        rw [hback]
        exact h.pool_live hopen)
    show selectorUnregisterFd u fd = _
    rw [hclose, socksv5Close_eq hv hpopen hpfd, hremove]
    simp only [Server.push, hback]
    simp only [Server.set, v, u, Server.push]
    rfl
  · exact h.refs.set ho rfl
  · exact h.sockets.set ho rfl
  · exact h.results.set ho rfl
  · exact h.lookups.set ho (Or.inl rfl) (fun hclosing => ⟨hclosing, rfl⟩) (Or.inl rfl)
  · have hserial : o'.serial = o.serial := rfl
    have hunreg : sideRegistered .client o' = false := rfl
    apply h.entries.unregister hit hclear ho hhandler' hdata hserial hunreg
    intro d hd
    cases d with
    | client => exact absurd rfl hd
    | origin => exact ⟨rfl, rfl⟩
  · exact h.pool.remove hpool hmem rfl
  · apply gone_update h.gone
    intro hreleased
    exact absurd (hopen.symm.trans hreleased) (by simp)

/-- selector_unregister_fd of the origin's descriptor. -/
theorem unregister_origin (h : Parts none s jobs pending clearing) (hit : s.items fd = some it)
    (hclear : fd ∉ clearing) (hhandler : it.handler = .origin) (hdata : it.data = some a)
    (ho : s.heap a = some o) (hopen : o.released = false) (fs : List Frame) {p : Socks5}
    (hp : { p with originRegistered := false } = { o with originRegistered := false }) :
    ∃ t, selectorUnregisterFd ((s.set a p).push fs) fd = .ok t ∧
      Parts none t jobs pending (fd :: clearing) ∧
      t.heap = Function.update s.heap a (some { o with originRegistered := false }) ∧
      t.items = s.items ∧ t.workers = s.workers ∧ t.jobs = s.jobs ∧
      t.stack = .clear fd (some a) :: (fs ++ s.stack) := by
  let o' : Socks5 := { o with originRegistered := false }
  have hhandler' : it.handler = handlerOf .origin := hhandler
  obtain ⟨q, hq, hreg, hfd, -⟩ := h.entries.belongs hit hclear hhandler' hdata
  obtain rfl := Option.some.inj (ho.symm.trans hq)
  have hpfd : p.originFd = some fd := (congrArg Socks5.originFd hp).trans hfd
  have hpopen : p.released = false := (congrArg Socks5.released hp).trans hopen
  let t : Server := { s with
    heap := Function.update s.heap a (some o')
    stack := .clear fd (some a) :: (fs ++ s.stack)
    books := { s.books with
      registrations := s.books.registrations.settle it.registration } }
  refine ⟨t, ?_, ⟨?_, ?_, ?_, ?_, ?_, ?_, ?_⟩, rfl, rfl, rfl, rfl, rfl⟩
  · let u : Server := (s.set a p).push fs
    let v : Server := { u with
      stack := .clear fd (some a) :: u.stack
      books := { u.books with
        registrations := u.books.registrations.settle it.registration } }
    have hitu : u.items fd = some it := hit
    have hv : v.heap a = some p := Function.update_self _ _ _
    have hclose : selectorUnregisterFd u fd = originConnectClose v fd a := by
      rw [unregisterFd_eq hitu, handleClose_origin hhandler hdata, hdata]
    show selectorUnregisterFd u fd = _
    rw [hclose, originConnectClose_eq hv hpopen hpfd]
    have hback : (v.set a { p with originRegistered := false }) = t := by
      show ({ v with heap := Function.update (Function.update s.heap a (some p)) a _ } : Server) = t
      rw [hp, Function.update_idem]
      rfl
    rw [hback]
  · exact h.refs.set ho rfl
  · exact h.sockets.set ho rfl
  · exact h.results.set ho rfl
  · exact h.lookups.set ho (Or.inl rfl) (fun hclosing => ⟨hclosing, rfl⟩) (Or.inl rfl)
  · have hserial : o'.serial = o.serial := rfl
    have hunreg : sideRegistered .origin o' = false := rfl
    apply h.entries.unregister hit hclear ho hhandler' hdata hserial hunreg
    intro d hd
    cases d with
    | client => exact ⟨rfl, rfl⟩
    | origin => exact absurd rfl hd
  · exact h.pool.set ho rfl
  · apply gone_update h.gone
    intro hreleased
    exact absurd (hopen.symm.trans hreleased) (by simp)

/-- selector_unregister_fd of a listener or a monitoring connection. -/
theorem unregister_other (h : Parts none s jobs pending clearing) (hit : s.items fd = some it)
    (hclear : fd ∉ clearing) (hhandler : it.handler = .other) (fs : List Frame) :
    ∃ t, selectorUnregisterFd (s.push fs) fd = .ok t ∧
      Parts none t jobs pending (fd :: clearing) ∧ t.heap = s.heap ∧ t.items = s.items ∧
      t.fds = s.fds ∧ t.workers = s.workers ∧ t.jobs = s.jobs ∧
      t.stack = .clear fd it.data :: (fs ++ s.stack) := by
  have hitu : (s.push fs).items fd = some it := hit
  rw [unregisterFd_eq hitu, handleClose_other hhandler]
  have hentries := h.entries.unregister_other hit hclear hhandler
  cases it.data with
  | none =>
    exact ⟨_, rfl, ⟨h.refs, h.sockets, h.results, h.lookups, hentries, h.pool, h.gone⟩, rfl, rfl,
      rfl, rfl, rfl, rfl⟩
  | some b =>
    exact ⟨_, rfl, ⟨h.refs, h.sockets, h.results, h.lookups, hentries, h.pool, h.gone⟩, rfl, rfl,
      rfl, rfl, rfl, rfl⟩

/-- The entry is cleared. -/
theorem clear (h : Parts borrowed s jobs pending (fd :: clearing)) (hclear : fd ∉ clearing) :
    Parts borrowed (s.setItem fd none) jobs pending clearing :=
  ⟨h.refs, h.sockets, h.results, h.lookups, h.entries.clear hclear, h.pool, h.gone⟩

/-- A descriptor of the connection, on which nothing is registered, is closed
and forgotten. -/
theorem close_side (h : Parts none s jobs pending clearing) (ho : s.heap a = some o)
    (hopen : o.released = false) (hfd : sideFd side o = some fd)
    (hunreg : sideRegistered side o = false) (hclosing : o.closing = true ∨ side = .origin) :
    ∃ t, sysClose s fd = .ok t ∧ Parts none (t.set a (dropFd side o)) jobs pending clearing ∧
      t.heap = s.heap ∧ t.items = s.items ∧ Calm s t := by
  obtain ⟨sk, hsk, howner, -⟩ := h.sockets.stored_open a o side fd ho hfd
  have hserial : (dropFd side o).serial = o.serial := by cases side <;> rfl
  have hreleased : (dropFd side o).released = o.released := by cases side <;> rfl
  have hcancelled : (dropFd side o).cancelled = o.cancelled := by cases side <;> rfl
  have hresult : (dropFd side o).dnsResult = o.dnsResult := by cases side <;> rfl
  have hnone : sideFd side (dropFd side o) = none := by cases side <;> rfl
  have hreg : ∀ d, sideRegistered d (dropFd side o) = sideRegistered d o := by
    cases side <;> exact fun _ => rfl
  have hsame : ∀ d, d ≠ side → sideFd d (dropFd side o) = sideFd d o := by
    intro d hd
    cases side <;> cases d <;> first | rfl | exact absurd rfl hd
  refine ⟨_, sysClose_eq hsk, ⟨?_, ?_, ?_, ?_, ?_, ?_, ?_⟩, rfl, rfl, ⟨rfl, rfl, rfl⟩⟩
  · apply h.refs.set ho
    cases side <;> rfl
  · exact (h.sockets.unstore h.refs.serial_inj ho hfd hserial hnone hsame).closes hsk
  · exact h.results.set ho hresult
  · apply h.lookups.set ho (Or.inl hcancelled) _ (Or.inl hresult)
    intro hopen'
    have hopen'' : o.closing = false := by cases side <;> exact hopen'
    rcases hclosing with htrue | rfl
    · exact absurd (hopen''.symm.trans htrue) (by simp)
    · exact ⟨hopen'', rfl⟩
  · have hentries : EntriesOk s.heap (Function.update s.fds fd none) s.items
        s.books.registrations clearing := by
      apply h.entries.fds_change
      intro e it sk' _ _ hsk' hown
      have hne : e ≠ fd := by
        rintro rfl
        obtain rfl := Option.some.inj (hsk.symm.trans hsk')
        rw [howner] at hown
        exact absurd hown (by simp)
      rw [Function.update_of_ne hne]
      exact hsk'
    apply hentries.set ho
    refine ⟨hserial, ?_⟩
    intro d
    refine ⟨hreg d, ?_⟩
    intro hd
    apply hsame d
    rintro rfl
    exact absurd (hd.symm.trans hunreg) (by simp)
  · exact h.pool.set ho (hreg .client)
  · apply gone_update h.gone
    intro hrel
    exact absurd ((hreleased.trans hopen).symm.trans hrel) (by simp)

/-- socks5_release of the reference that the step has borrowed. -/
theorem release (h : Parts (some a) s jobs pending clearing) :
    ∃ t, socks5Release s a = .ok t ∧ Parts none t jobs pending clearing ∧
      RefsOk.Released s a t ∧ Calm s t := by
  obtain ⟨t, hrelease, hreleased, hrefs⟩ := h.refs.release
  refine ⟨t, hrelease, ?_, hreleased, ?_⟩
  · cases hreleased with
    | last ho hcount howner =>
      have hgone := h.gone a _ ho howner
      refine ⟨hrefs, h.sockets.free ho hgone.fds, h.results.free ho, ?_, ?_, ?_, ?_⟩
      · apply h.lookups.heap_change
        intro b p hp
        exact Or.inl (update_none hp).2
      · apply h.entries.heap_change
        · intro b p side hp hreg
          have hb : b ≠ a := by
            rintro rfl
            obtain rfl := Option.some.inj (ho.symm.trans hp)
            exact absurd (hreg.symm.trans (hgone.unregistered side)) (by simp)
          show Function.update s.heap a none b = some p
          rw [Function.update_of_ne hb]
          exact hp
        · intro b p side hp _
          exact (update_none hp).2
      · apply h.pool.heap_change
        intro b
        constructor
        · rintro ⟨p, hp, hreg⟩
          exact ⟨p, (update_none hp).2, hreg⟩
        · rintro ⟨p, hp, hreg⟩
          have hb : b ≠ a := by
            rintro rfl
            obtain rfl := Option.some.inj (ho.symm.trans hp)
            exact absurd (hreg.symm.trans (hgone.unregistered .client)) (by simp)
          refine ⟨p, ?_, hreg⟩
          show Function.update s.heap a none b = some p
          rw [Function.update_of_ne hb, hp]
      · intro b p hp hrel
        exact h.gone b p (update_none hp).2 hrel
    | held ho hcount =>
      refine ⟨hrefs, h.sockets.set ho rfl, h.results.set ho rfl, ?_, ?_, h.pool.set ho rfl, ?_⟩
      · exact h.lookups.set ho (Or.inl rfl) (fun hclosing => ⟨hclosing, rfl⟩) (Or.inl rfl)
      · exact h.entries.set ho (EntriesOk.alike_of_eq rfl rfl rfl rfl rfl)
      · apply gone_update h.gone
        intro hrel
        obtain ⟨hclosing, hcancelled, hfds, hunreg⟩ := h.gone a _ ho hrel
        exact ⟨hclosing, hcancelled, hfds, hunreg⟩
  · cases hreleased with
    | last ho hcount howner => exact ⟨rfl, rfl, rfl⟩
    | held ho hcount => exact ⟨rfl, rfl, rfl⟩

/-- The initial owner lets go of a connection that has nothing left. -/
theorem owner_release (h : Parts none s jobs pending clearing) (ho : s.heap a = some o)
    (hopen : o.released = false) (hgone : Gone o) :
    ∃ t, ownerRelease s a = .ok t ∧ Parts none t jobs pending clearing ∧ Calm s t ∧
      t.items = s.items ∧ (∀ b, b ≠ a → t.heap b = s.heap b) ∧
      ∀ p, t.heap a = some p → p.released = true := by
  let o' : Socks5 := { o with released := true }
  let u : Server := { s.set a o' with
    books := { s.books with owners := s.books.owners.settle o.serial } }
  have hrelease : ownerRelease s a = socks5Release u a := owned_eq ho hopen _
  have hu : Parts (some a) u jobs pending clearing := by
    refine ⟨h.refs.disown ho hopen, h.sockets.set ho rfl, h.results.set ho rfl, ?_, ?_,
      h.pool.set ho rfl, ?_⟩
    · exact h.lookups.set ho (Or.inl rfl) (fun hclosing => ⟨hclosing, rfl⟩) (Or.inl rfl)
    · exact h.entries.set ho (EntriesOk.alike_of_eq rfl rfl rfl rfl rfl)
    · apply gone_update h.gone
      intro _
      exact ⟨hgone.closing, hgone.cancelled, hgone.fds, hgone.unregistered⟩
  obtain ⟨t, ht, hparts, hreleased, hcalm⟩ := hu.release
  have hua : u.heap a = some o' := Function.update_self _ _ _
  refine ⟨t, hrelease.trans ht, hparts, ⟨hcalm.workers, hcalm.jobs, hcalm.stack⟩, ?_, ?_, ?_⟩
  · cases hreleased <;> rfl
  · intro b hb
    cases hreleased with
    | last ho' hcount howner =>
      show Function.update (Function.update s.heap a (some o')) a none b = s.heap b
      rw [Function.update_of_ne hb, Function.update_of_ne hb]
    | @held q n ho' hcount =>
      show Function.update (Function.update s.heap a (some o')) a _ b = s.heap b
      rw [Function.update_of_ne hb, Function.update_of_ne hb]
  · intro p hp
    cases hreleased with
    | last ho' hcount howner => exact absurd rfl (update_none hp).1
    | held ho' hcount =>
      obtain rfl := Option.some.inj (hua.symm.trans ho')
      rcases update_some hp with ⟨-, rfl⟩ | ⟨hb, -⟩
      · rfl
      · exact absurd rfl hb

/-- The cleanup of the job at the head of the list. -/
theorem pop {j : BlockingJob} (h : Parts none s (j :: jobs) pending clearing) :
    ∃ t, socks5Release s j.data = .ok t ∧ Parts none t jobs pending clearing ∧
      RefsOk.Released s j.data t ∧ Calm s t := by
  have hpop : Parts (some j.data) s jobs pending clearing :=
    ⟨h.refs.pop, h.sockets, h.results, h.lookups, h.entries, h.pool, h.gone⟩
  exact hpop.release

/-- A worker is started, with a reference of its own. -/
theorem spawn (h : Parts none s jobs pending clearing) (ho : s.heap a = some o)
    (hfd : o.clientFd = some fd) (hidle : flying s.workers pending a = 0)
    (hnone : o.dnsResult = none) :
    Parts none
      { s.set a { o with references := o.references + 1 } with
        workers := s.workers ++
          [⟨a, fd, { serial := o.serial, n := s.workers.length }, .resolving⟩] }
      jobs pending clearing := by
  let o' : Socks5 := { o with references := o.references + 1 }
  have hself : Function.update s.heap a (some o') a = some o' := Function.update_self _ _ _
  refine ⟨?_, h.sockets.set ho rfl, ?_, ?_, ?_, h.pool.set ho rfl, ?_⟩
  · exact (h.refs.ref ho).spawn hself rfl rfl rfl
  · have hresults : ResultsOk (Function.update s.heap a (some o')) s.workers s.books.results :=
      h.results.set ho rfl
    exact hresults.spawn rfl
  · have hlookups : LookupsOk (Function.update s.heap a (some o')) s.workers pending
        s.books.blockDone :=
      h.lookups.set ho (Or.inl rfl) (fun hclosing => ⟨hclosing, rfl⟩) (Or.inl rfl)
    exact hlookups.spawn hself hidle hnone hfd rfl
  · exact h.entries.set ho (EntriesOk.alike_of_eq rfl rfl rfl rfl rfl)
  · apply gone_update h.gone
    intro hrel
    obtain ⟨hclosing, hcancelled, hfds, hunreg⟩ := h.gone a o ho hrel
    exact ⟨hclosing, hcancelled, hfds, hunreg⟩

/-- Without a thread the new reference is released at once, and nothing has changed. -/
theorem refused (h : Parts none s jobs pending clearing) (ho : s.heap a = some o) :
    socks5Release (s.set a { o with references := o.references + 1 }) a = .ok s := by
  have hpos := h.refs.references_pos a o ho
  obtain ⟨n, hn⟩ : ∃ n, o.references = n + 1 := ⟨o.references - 1, by omega⟩
  have hself : (s.set a { o with references := o.references + 1 }).heap a =
      some { o with references := o.references + 1 } := Function.update_self _ _ _
  unfold socks5Release
  rw [hself]
  dsimp only
  rw [hn]
  dsimp only
  rw [← hn]
  unfold Server.set
  dsimp only
  rw [Function.update_idem, ← ho, Function.update_eq_self]

/-- A worker goes on; its reference and its list stay where they are. -/
theorem move (h : Parts none s jobs pending clearing) (hi : s.workers[i]? = some w)
    (hholds : st.holds = w.state.holds) (hresult : st.result = w.state.result)
    (hflying : st.flying = false) (hlocks : st.locks = true → w.state.locks = true)
    (hhanded : st ≠ .unlocking true) :
    Parts none (setWorker s i w st) jobs pending clearing :=
  ⟨h.refs.move hi hholds, h.sockets, h.results.move hi hresult,
    h.lookups.move hi hflying hlocks hhanded, h.entries, h.pool, h.gone⟩

/-- The worker queues its job. -/
theorem notify (h : Parts none s s.jobs s.jobs clearing) (hi : s.workers[i]? = some w)
    (hw : w.state = .notifying) :
    Parts none
      { setWorker s i w (.unlocking true) with
        jobs := { fd := w.clientFd, data := w.socks, lookup := w.lookup } :: s.jobs }
      ({ fd := w.clientFd, data := w.socks, lookup := w.lookup } :: s.jobs)
      ({ fd := w.clientFd, data := w.socks, lookup := w.lookup } :: s.jobs) clearing := by
  have hholds : w.state.holds = true := by
    rw [hw]
    rfl
  have hresult : (WorkerState.unlocking true).result = w.state.result := by
    rw [hw]
    rfl
  exact ⟨h.refs.hand w.clientFd hi hholds rfl, h.sockets, h.results.move hi hresult,
    h.lookups.queue hi hw, h.entries, h.pool, h.gone⟩

theorem release_worker (st : WorkerState) :
    (socks5Release s a).map (fun s => setWorker s i w st) =
      socks5Release (setWorker s i w st) a := by
  have hheap : (setWorker s i w st).heap a = s.heap a := rfl
  unfold socks5Release
  rw [hheap]
  cases s.heap a with
  | none => rfl
  | some o =>
    dsimp only
    split <;> rfl

/-- The worker releases its reference. -/
theorem leave {r : Option ℕ} (h : Parts none s jobs pending clearing)
    (hi : s.workers[i]? = some w) (hw : w.state = .releasing r) :
    ∃ t, (socks5Release s w.socks).map (fun s => setWorker s i w (.freeing r)) = .ok t ∧
      Parts none t jobs pending clearing ∧
      RefsOk.Released (setWorker s i w (.freeing r)) w.socks t ∧
      Calm (setWorker s i w (.freeing r)) t := by
  have hholds : w.state.holds = true := by
    rw [hw]
    rfl
  have hresult : (WorkerState.freeing r).result = w.state.result := by
    rw [hw]
    rfl
  have hleft : Parts (some w.socks) (setWorker s i w (.freeing r)) jobs pending clearing :=
    ⟨h.refs.leave hi hholds rfl, h.sockets, h.results.move hi hresult,
      h.lookups.move hi rfl (fun hlocks => absurd hlocks (by simp [WorkerState.locks])) (by simp),
      h.entries, h.pool, h.gone⟩
  rw [release_worker]
  exact hleft.release

/-- The worker passes its list to freeaddrinfo and exits. -/
theorem exit {r : ℕ} (h : Parts none s jobs pending clearing) (hi : s.workers[i]? = some w)
    (hw : w.state = .freeing (some r)) :
    Parts none
      { setWorker s i w .exited with
        books := { s.books with results := s.books.results.settle r } } jobs pending clearing := by
  have hholds : WorkerState.exited.holds = w.state.holds := by
    rw [hw]
    rfl
  have hresult : w.state.result = some r := by
    rw [hw]
    rfl
  exact ⟨h.refs.move hi hholds, h.sockets, h.results.drop hi hresult rfl,
    h.lookups.move hi rfl (fun hlocks => absurd hlocks (by simp [WorkerState.locks])) (by simp),
    h.entries, h.pool, h.gone⟩

/-- getaddrinfo returned. The worker stores what it has found, or keeps it when
the connection was cancelled. -/
theorem finish (h : Parts none s jobs pending clearing) (hi : s.workers[i]? = some w)
    (hw : w.state = .resolving) (hfree : s.locked w.socks = false) (error : ℤ)
    (result : List AddrInfo) :
    ∃ t o o' st, workerFinish s i w error result = .ok t ∧ Parts none t jobs pending clearing ∧
      s.heap w.socks = some o ∧ t.heap = Function.update s.heap w.socks (some o') ∧ Tame o o' ∧
      o'.closing = o.closing ∧ o'.cancelled = o.cancelled ∧ o'.current = o.current ∧
      t.workers = s.workers.set i { w with state := st } ∧ t.jobs = s.jobs ∧ Still s t ∧
      (st = .notifying ∨ st.flying = false) := by
  have hholds : w.state.holds = true := by
    rw [hw]
    rfl
  have hkept : w.state.result = none := by
    rw [hw]
    rfl
  obtain ⟨o, ho, -⟩ := h.refs.worker_live i w hi hholds
  unfold workerFinish
  rw [if_neg (by simp [hfree]), ho]
  dsimp only
  have hgone : ∀ o' : Socks5, Tame o o' → o'.closing = o.closing → o'.cancelled = o.cancelled →
      ∀ b p, Function.update s.heap w.socks (some o') b = some p → p.released = true → Gone p := by
    intro o' htame hclosing hcancelled
    apply gone_update h.gone
    intro hrel
    have hgone := h.gone _ o ho (htame.released ▸ hrel)
    exact htame.gone hgone (hclosing.trans hgone.closing) (hcancelled.trans hgone.cancelled)
  by_cases hcancelled : o.cancelled = true
  · rw [if_pos hcancelled]
    let o' : Socks5 := { o with dnsPending := false }
    have hrefs : RefsOk none (Function.update s.heap w.socks (some o')) s.workers jobs
        s.books.states s.books.owners s.accepted := h.refs.set ho rfl
    have hresults : ResultsOk (Function.update s.heap w.socks (some o')) s.workers
        s.books.results := h.results.set ho rfl
    have hlookups : LookupsOk (Function.update s.heap w.socks (some o')) s.workers pending
        s.books.blockDone :=
      h.lookups.set ho (Or.inl rfl) (fun hclosing => ⟨hclosing, rfl⟩) (Or.inl rfl)
    have htame : Tame o o' := ⟨rfl, rfl, rfl, rfl, rfl, rfl, rfl⟩
    by_cases hempty : result = []
    · rw [if_pos hempty, if_pos hempty]
      refine ⟨_, o, o', .releasing none, rfl, ?_, rfl, rfl, htame, rfl, rfl, rfl, rfl, rfl,
        ⟨rfl, rfl, rfl, rfl⟩, Or.inr rfl⟩
      refine ⟨hrefs.move hi hholds.symm, h.sockets.set ho rfl, hresults.move hi hkept.symm, ?_,
        h.entries.set ho (EntriesOk.alike_of_eq rfl rfl rfl rfl rfl), h.pool.set ho rfl,
        hgone o' htame rfl rfl⟩
      exact hlookups.move hi rfl (fun hlocks => absurd hlocks (by simp [WorkerState.locks])) (by simp)
    · rw [if_neg hempty, if_neg hempty]
      refine ⟨_, o, o', .releasing (some s.books.results.issued.length), rfl, ?_, rfl, rfl, htame,
        rfl, rfl, rfl, rfl, rfl, ⟨rfl, rfl, rfl, rfl⟩, Or.inr rfl⟩
      refine ⟨hrefs.move hi hholds.symm, h.sockets.set ho rfl, hresults.keep hi hkept rfl, ?_,
        h.entries.set ho (EntriesOk.alike_of_eq rfl rfl rfl rfl rfl), h.pool.set ho rfl,
        hgone o' htame rfl rfl⟩
      exact hlookups.move hi rfl (fun hlocks => absurd hlocks (by simp [WorkerState.locks])) (by simp)
  · rw [if_neg hcancelled]
    have hopen : o.cancelled = false := by simpa using hcancelled
    have hnone := h.lookups.unresolved i w o hi hw ho hopen
    by_cases hempty : result = []
    · rw [if_pos hempty, if_pos hempty]
      let o' : Socks5 := { o with
        dnsPending := false, dnsError := error, dnsResult := none, dnsNext := result }
      have hrefs : RefsOk none (Function.update s.heap w.socks (some o')) s.workers jobs
          s.books.states s.books.owners s.accepted := h.refs.set ho rfl
      have hresults : ResultsOk (Function.update s.heap w.socks (some o')) s.workers
          s.books.results := h.results.set ho hnone.symm
      have htame : Tame o o' := ⟨rfl, rfl, rfl, rfl, rfl, rfl, rfl⟩
      refine ⟨_, o, o', .notifying, rfl, ?_, rfl, rfl, htame, rfl, rfl, rfl, rfl, rfl,
        ⟨rfl, rfl, rfl, rfl⟩, Or.inl rfl⟩
      exact ⟨hrefs.move hi hholds.symm, h.sockets.set ho rfl, hresults.move hi hkept.symm,
        h.lookups.store hi hw ho hopen rfl rfl rfl,
        h.entries.set ho (EntriesOk.alike_of_eq rfl rfl rfl rfl rfl), h.pool.set ho rfl,
        hgone o' htame rfl rfl⟩
    · rw [if_neg hempty, if_neg hempty]
      let o' : Socks5 := { o with
        dnsPending := false, dnsError := error
        dnsResult := some s.books.results.issued.length, dnsNext := result }
      have hrefs : RefsOk none (Function.update s.heap w.socks (some o')) s.workers jobs
          s.books.states s.books.owners s.accepted := h.refs.set ho rfl
      have hresults : ResultsOk (Function.update s.heap w.socks (some o')) s.workers
          (s.books.results.issue s.books.results.issued.length) := h.results.store ho hnone rfl
      have htame : Tame o o' := ⟨rfl, rfl, rfl, rfl, rfl, rfl, rfl⟩
      refine ⟨_, o, o', .notifying, rfl, ?_, rfl, rfl, htame, rfl, rfl, rfl, rfl, rfl,
        ⟨rfl, rfl, rfl, rfl⟩, Or.inl rfl⟩
      exact ⟨hrefs.move hi hholds.symm, h.sockets.set ho rfl, hresults.move hi hkept.symm,
        h.lookups.store hi hw ho hopen rfl rfl rfl,
        h.entries.set ho (EntriesOk.alike_of_eq rfl rfl rfl rfl rfl), h.pool.set ho rfl,
        hgone o' htame rfl rfl⟩

/-- The head of the list is passed over. -/
theorem handle {j : BlockingJob} (h : Parts none s jobs (j :: pending) clearing)
    (hfree : ∀ (i : ℕ) w, s.workers[i]? = some w → w.state = .unlocking true →
      w.lookup ≠ j.lookup) : Parts none s jobs pending clearing :=
  ⟨h.refs, h.sockets, h.results, h.lookups.handle hfree, h.entries, h.pool, h.gone⟩

/-- The head of the list is reported to its connection. -/
theorem report {j : BlockingJob} (h : Parts none s jobs (j :: pending) clearing)
    (hfree : ∀ (i : ℕ) w, s.workers[i]? = some w → w.state = .unlocking true →
      w.lookup ≠ j.lookup) {k : ℕ} (hk : k = j.lookup.serial) :
    Parts none { s with books := { s.books with blockDone := (k, j.lookup) :: s.books.blockDone } }
      jobs pending clearing :=
  ⟨h.refs, h.sockets, h.results, h.lookups.report hfree hk, h.entries, h.pool, h.gone⟩

/-- relay_flush has written. -/
theorem flush (h : Parts none s jobs pending clearing) (fd : Option ℕ) (f : Flush) :
    Parts none (relayFlush s fd f).2 jobs pending clearing := by
  obtain ⟨bytes, writes, heq, hsum⟩ := relayFlush_spec s fd f
  have hpool := h.pool.flush bytes
  rw [← hsum] at hpool
  rw [heq]
  exact ⟨h.refs, h.sockets, h.results, h.lookups, h.entries, hpool, h.gone⟩

/-- One more client was counted. -/
theorem count (h : Parts none s jobs pending clearing) :
    Parts none { s with accepted := s.accepted + 1 } jobs pending clearing :=
  ⟨h.refs.accept, h.sockets, h.results, h.lookups, h.entries, h.pool, h.gone⟩

/-- No worker and no job points to an address that is free. -/
theorem lookups_alloc (h : Parts none s jobs jobs clearing) (hfree : s.heap a = none) :
    LookupsOk (Function.update s.heap a (some o)) s.workers jobs s.books.blockDone := by
  have hjob : ∀ j ∈ jobs, j.data ≠ a := by
    rintro j hj rfl
    obtain ⟨p, hp, -⟩ := h.refs.job_live j hj
    rw [hfree] at hp
    exact absurd hp (by simp)
  have hholder : ∀ (i : ℕ) w, s.workers[i]? = some w → w.state.holds = true → w.socks ≠ a := by
    rintro i w hi hholds rfl
    obtain ⟨p, hp, -⟩ := h.refs.worker_live i w hi hholds
    rw [hfree] at hp
    exact absurd hp (by simp)
  apply h.lookups.heap_change
  intro b p hp
  rcases update_some hp with ⟨rfl, -⟩ | ⟨-, hp⟩
  · refine Or.inr ⟨?_, hjob⟩
    intro i w hi hsocks
    cases hw : w.state with
    | resolving => exact absurd hsocks (hholder i w hi (by rw [hw]; rfl))
    | notifying => exact absurd hsocks (hholder i w hi (by rw [hw]; rfl))
    | unlocking queued =>
      cases queued with
      | true =>
        -- its job is still in the list
        obtain ⟨j, hj, hdata, -⟩ := h.lookups.handed i w hi hw
        exact absurd (hdata.trans hsocks) (hjob j hj)
      | false => exact absurd hsocks (hholder i w hi (by rw [hw]; rfl))
    | releasing r => exact ⟨rfl, rfl⟩
    | freeing r => exact ⟨rfl, rfl⟩
    | exited => exact ⟨rfl, rfl⟩
  · exact Or.inl hp

/-- The server when socksv5_passive_accept has its state. -/
def allocated (s : Server) (fd a : ℕ) : Server :=
  { { sysOpen s fd (some s.accepted) .client with accepted := s.accepted + 1 }.set a
      (socks5Init s.accepted fd) with
    books := { (sysOpen s fd (some s.accepted) .client).books with
      states := s.books.states.issue s.accepted
      owners := s.books.owners.issue s.accepted } }

/-- A client is accepted and registered. -/
theorem accepted (h : Parts none s jobs jobs []) (hfd : s.fds fd = none) (hfree : s.heap a = none)
    {i : FdInterest}
    (hr : selectorRegister (allocated s fd a) fd .socksv5 i (some a) (some s.accepted) = some t) :
    Parts none
        (socksv5PoolAdd (t.set a { socks5Init s.accepted fd with clientRegistered := true }) a)
        jobs jobs [] ∧
      Calm s t ∧ t.heap = Function.update s.heap a (some (socks5Init s.accepted fd)) := by
  let o : Socks5 := socks5Init s.accepted fd
  let o' : Socks5 := { o with clientRegistered := true }
  let sk : Socket :=
    { owner := some s.accepted, side := .client, n := s.books.sockets.issued.length }
  let r : Registration := ⟨some s.accepted, s.books.registrations.issued.length⟩
  unfold selectorRegister at hr
  split at hr
  · exact absurd hr (by simp)
  next hok =>
    rw [not_or, not_le] at hok
    obtain rfl := Option.some.inj hr
    refine ⟨?_, ⟨rfl, rfl, rfl⟩, rfl⟩
    have hidem : Function.update (Function.update s.heap a (some o)) a (some o') =
        Function.update s.heap a (some o') := Function.update_idem _ _ _
    have hself : Function.update s.heap a (some o) a = some o := Function.update_self _ _ _
    have hunreg : ∀ side, sideRegistered side o = false := by
      intro side
      cases side <;> rfl
    have hfresh : ∀ b p, s.heap b = some p → b ≠ a := by
      rintro b p hp rfl
      rw [hfree] at hp
      exact absurd hp (by simp)
    have hrefs : RefsOk none (Function.update s.heap a (some o)) s.workers jobs
        (s.books.states.issue s.accepted) (s.books.owners.issue s.accepted) (s.accepted + 1) :=
      h.refs.alloc hfree rfl rfl rfl
    have hentries : EntriesOk (Function.update s.heap a (some o))
        (Function.update s.fds fd (some sk)) s.items s.books.registrations [] := by
      apply (h.entries_open hfd sk).heap_change
      · intro b p side hp _
        rw [Function.update_of_ne (hfresh b p hp)]
        exact hp
      · intro b p side hp hreg
        rcases update_some hp with ⟨-, rfl⟩ | ⟨-, hp⟩
        · exact absurd (hreg.symm.trans (hunreg side)) (by simp)
        · exact hp
    have hparts : Parts none { s with
        heap := Function.update s.heap a (some o')
        fds := Function.update s.fds fd (some sk)
        items := Function.update s.items fd (some ⟨.socksv5, i, some a, r⟩)
        pool := a :: s.pool
        poolSize := s.poolSize + 1
        metrics := MonServer.metricsConnectionOpened s.metrics
        accepted := s.accepted + 1
        books := { s.books with
          sockets := s.books.sockets.issue sk
          registrations := s.books.registrations.issue r
          states := s.books.states.issue s.accepted
          owners := s.books.owners.issue s.accepted
          added := s.books.added + 1 } } jobs jobs [] := by
      refine ⟨?_, ?_, ?_, h.lookups_alloc hfree, ?_, ?_, ?_⟩
      · rw [← hidem]
        exact hrefs.set hself rfl
      · have howner : sk.owner = some o'.serial := rfl
        have hopened : SocketsOk (some fd) s.heap (Function.update s.fds fd (some sk))
            (s.books.sockets.issue sk) := h.sockets.opens hfd rfl
        apply hopened.store (Function.update_self _ _ _) howner rfl rfl
        refine Or.inl ⟨hfree, ?_⟩
        intro d hd
        cases d with
        | client => exact absurd rfl hd
        | origin => rfl
      · exact h.results.alloc hfree rfl
      · rw [← hidem]
        have hserial : o'.serial = o.serial := rfl
        have hreg : sideRegistered .client o' = true := rfl
        have hstored : sideFd .client o' = some fd := rfl
        apply hentries.register hok.1 (h.entry_none hfd) List.not_mem_nil hself rfl rfl rfl rfl
          hserial hreg hstored (hunreg .client)
        intro d hd
        cases d with
        | client => exact absurd rfl hd
        | origin => exact ⟨rfl, rfl⟩
      · apply h.pool.add _ rfl
        intro p hp
        exact absurd rfl (hfresh a p hp)
      · apply gone_update h.gone
        intro hrel
        exact absurd hrel (by simp [o', o, socks5Init])
    rw [← hidem] at hparts
    exact hparts

/-- A client is accepted whose descriptor cannot be registered. -/
theorem turn_away (h : Parts none s jobs jobs []) (hfd : s.fds fd = none)
    (hfree : s.heap a = none) :
    ∃ t, (ownerRelease (allocated s fd a) a).bind (fun s => sysClose s fd) = .ok t ∧
      Parts none t jobs jobs [] ∧ t.heap = s.heap ∧ Calm s t := by
  let o : Socks5 := socks5Init s.accepted fd
  let o' : Socks5 := { o with released := true }
  let sk : Socket :=
    { owner := some s.accepted, side := .client, n := s.books.sockets.issued.length }
  let u : Server := { (allocated s fd a).set a o' with
    books := { (allocated s fd a).books with
      owners := (s.books.owners.issue s.accepted).settle s.accepted } }
  have hself : (allocated s fd a).heap a = some o := Function.update_self _ _ _
  have hrelease : ownerRelease (allocated s fd a) a = socks5Release u a := owned_eq hself rfl _
  have hrefs : RefsOk none (Function.update s.heap a (some o)) s.workers jobs
      (s.books.states.issue s.accepted) (s.books.owners.issue s.accepted) (s.accepted + 1) :=
    h.refs.alloc hfree rfl rfl rfl
  have hu : RefsOk (some a) u.heap s.workers jobs u.books.states
      ((s.books.owners.issue s.accepted).settle s.accepted) (s.accepted + 1) :=
    hrefs.disown (Function.update_self _ _ _) rfl
  obtain ⟨v, hv, hreleased, hrefs'⟩ := hu.release
  have hua : u.heap a = some o' := Function.update_self _ _ _
  have hfreed : v = socks5Free u a o' := by
    cases hreleased with
    | last ho hcount howner =>
      obtain rfl := Option.some.inj (hua.symm.trans ho)
      rfl
    | held ho hcount =>
      obtain rfl := Option.some.inj (hua.symm.trans ho)
      exact absurd hcount (by simp [o', o, socks5Init])
  have hheap : v.heap = s.heap := by
    rw [hfreed]
    show Function.update (Function.update (Function.update s.heap a (some o)) a (some o')) a none =
      s.heap
    rw [Function.update_idem, Function.update_idem, ← hfree, Function.update_eq_self]
  have hopen : v.fds fd = some sk := by
    rw [hfreed]
    exact Function.update_self _ _ _
  have hback : Function.update v.fds fd none = s.fds := by
    rw [hfreed]
    show Function.update (Function.update s.fds fd (some sk)) fd none = s.fds
    rw [Function.update_idem, ← hfd, Function.update_eq_self]
  have hopened : SocketsOk (some fd) s.heap (Function.update s.fds fd (some sk))
      (s.books.sockets.issue sk) := h.sockets.opens hfd rfl
  have hsockets := hopened.closes (Function.update_self _ _ _)
  have hfds : Function.update (Function.update s.fds fd (some sk)) fd none = s.fds := by
    rw [hfreed] at hback
    exact hback
  rw [hfds] at hsockets
  rw [hrelease, hv]
  refine ⟨_, sysClose_eq hopen, ?_, hheap, ?_⟩
  · rw [hheap] at hrefs'
    subst hfreed
    refine ⟨?_, ?_, ?_, ?_, ?_, ?_, ?_⟩
    · show RefsOk none (socks5Free u a o').heap _ _ _ _ _
      rw [hheap]
      exact hrefs'
    · show SocketsOk none (socks5Free u a o').heap (Function.update (socks5Free u a o').fds fd none) _
      rw [hheap, hback]
      exact hsockets
    · show ResultsOk (socks5Free u a o').heap s.workers s.books.results
      rw [hheap]
      exact h.results
    · show LookupsOk (socks5Free u a o').heap s.workers jobs s.books.blockDone
      rw [hheap]
      exact h.lookups
    · show EntriesOk (socks5Free u a o').heap (Function.update (socks5Free u a o').fds fd none)
        s.items s.books.registrations []
      rw [hheap, hback]
      exact h.entries
    · show PoolOk (socks5Free u a o').heap s.pool _ _ _ _ _
      rw [hheap]
      exact h.pool
    · show ∀ b p, (socks5Free u a o').heap b = some p → p.released = true → Gone p
      rw [hheap]
      exact h.gone
  · rw [hfreed]
    exact ⟨rfl, rfl, rfl⟩

/-- A listener or a monitoring connection is opened; it is closed again when it
cannot be registered. -/
theorem other_open (h : Parts none s jobs pending []) (hfd : s.fds fd = none)
    {data : Option ℕ} {i : FdInterest}
    (hr : selectorRegister (sysOpen s fd none .client) fd .other i data none = some t) :
    Parts none t jobs pending [] ∧ Calm s t ∧ t.heap = s.heap := by
  let sk : Socket := { owner := none, side := .client, n := s.books.sockets.issued.length }
  unfold selectorRegister at hr
  split at hr
  · exact absurd hr (by simp)
  next hok =>
    rw [not_or, not_le] at hok
    obtain rfl := Option.some.inj hr
    have hself : Function.update s.fds fd (some sk) fd = some sk := Function.update_self _ _ _
    have hopened : SocketsOk (some fd) s.heap (Function.update s.fds fd (some sk))
        (s.books.sockets.issue sk) := h.sockets.opens hfd rfl
    refine ⟨⟨h.refs, hopened.forget hself rfl, h.results, h.lookups, ?_, h.pool, h.gone⟩,
      ⟨rfl, rfl, rfl⟩, rfl⟩
    exact (h.entries_open hfd sk).register_other hok.1 (h.entry_none hfd) List.not_mem_nil rfl rfl
      rfl hself rfl

/-- A descriptor that is not a connection's, and has no entry, is closed. -/
theorem other_close (h : Parts none s jobs pending clearing) (hsk : s.fds fd = some sk)
    (howner : sk.owner = none) (hitem : s.items fd = none) :
    ∃ t, sysClose s fd = .ok t ∧ Parts none t jobs pending clearing ∧ t.heap = s.heap ∧
      Calm s t := by
  refine ⟨_, sysClose_eq hsk, ⟨h.refs, ?_, h.results, h.lookups, ?_, h.pool, h.gone⟩, rfl,
    ⟨rfl, rfl, rfl⟩⟩
  · exact (h.sockets.take_back hsk howner).closes hsk
  · apply h.entries.fds_change
    intro e it sk' hit _ hsk' _
    have hne : e ≠ fd := by
      rintro rfl
      rw [hitem] at hit
      exact absurd hit (by simp)
    show Function.update s.fds fd none e = some sk'
    rw [Function.update_of_ne hne]
    exact hsk'

end Parts

end SocksProxy.ServerParts
