import SocksProxy.ServerViews

/-!
socks5_connection_close of an open connection, call by call. Nothing is left of it in the
table, the pool and the kernel; its memory stays as long as its lookup has a reference.
-/
namespace SocksProxy.ServerPartings

open Kernel Ledgers Runs ServerState ServerSteps ServerRefs ServerParts ServerViews
open ConnState (FdInterest DnsJob)

variable {F : Set ℕ} {fd a n : ℕ} {s t : Server} {o : Socks5} {v : View}
  {rest : List Frame} {f : Frame}

variable {heap : ℕ → Option Socks5} {items : ℕ → Option Item} {fds : ℕ → Option Socket}
  {pool : List ℕ} {fs : List Frame} {sk : Socket} {it : Item}

/-- What the calls of a close can change, and what they leave alone. -/
structure Becomes (s t : Server) (fs : List Frame) (heap : ℕ → Option Socks5)
    (items : ℕ → Option Item) (fds : ℕ → Option Socket) (pool : List ℕ) : Prop where
  stack : t.stack = fs
  heap : t.heap = heap
  items : t.items = items
  fds : t.fds = fds
  pool : t.pool = pool
  jobs : t.jobs = s.jobs
  workers : t.workers = s.workers

theorem step_run (hstack : s.stack = f :: rest) (k : Answers) :
    step s (.run k) = runFrame { s with stack := rest } k f := by
  simp only [step, hstack]

theorem owned_run (ho : s.heap a = some o) (hlive : o.released = false)
    (k : Socks5 → Except Halt Server) : ({ s with stack := rest } : Server).owned a k = k o :=
  owned_eq (s := { s with stack := rest }) ho hlive k

theorem closes_first (hstack : s.stack = .connectionClose a :: rest) (ho : s.heap a = some o)
    (hlive : o.released = false) (hopen : o.closing = false) (k : Answers) :
    ∃ t, Step s (.run k) t ∧
      Becomes s t (.cancel a :: .clientClose a :: .originClose a :: .release a :: rest)
        (Function.update s.heap a (some { o with closing := true })) s.items s.fds s.pool := by
  have hstep : step s (.run k) = .ok (({ s with stack := rest }.set a
      { o with closing := true }).push
        [.cancel a, .clientClose a, .originClose a, .release a]) := by
    rw [step_run hstack]
    show socks5ConnectionClose { s with stack := rest } a = _
    unfold socks5ConnectionClose
    rw [owned_run ho hlive, if_neg (by simp [hopen])]
  exact ⟨_, hstep, rfl, rfl, rfl, rfl, rfl, rfl, rfl⟩

theorem closes_again (hstack : s.stack = .connectionClose a :: rest) (ho : s.heap a = some o)
    (hlive : o.released = false) (hclosing : o.closing = true) (k : Answers) :
    ∃ t, Step s (.run k) t ∧ Becomes s t rest s.heap s.items s.fds s.pool := by
  have hstep : step s (.run k) = .ok { s with stack := rest } := by
    rw [step_run hstack]
    show socks5ConnectionClose { s with stack := rest } a = _
    unfold socks5ConnectionClose
    rw [owned_run ho hlive, if_pos hclosing]
  exact ⟨_, hstep, rfl, rfl, rfl, rfl, rfl, rfl, rfl⟩

theorem cancels (hstack : s.stack = .cancel a :: rest) (ho : s.heap a = some o)
    (hlive : o.released = false) (hfree : s.locked a = false) (k : Answers) :
    ∃ t, Step s (.run k) t ∧ Becomes s t rest
      (Function.update s.heap a (some { o with cancelled := true })) s.items s.fds s.pool := by
  have hstep : step s (.run k) =
      .ok ({ s with stack := rest }.set a { o with cancelled := true }) := by
    rw [step_run hstack]
    show socks5Cancel { s with stack := rest } a = _
    unfold socks5Cancel
    rw [if_neg (by simpa [Server.locked] using hfree), owned_run ho hlive]
  exact ⟨_, hstep, rfl, rfl, rfl, rfl, rfl, rfl, rfl⟩

/-- client_close begins; selector_unregister_fd calls socksv5_close. -/
theorem unregisters_client (hstack : s.stack = .clientClose a :: rest) (ho : s.heap a = some o)
    (hlive : o.released = false) (hfd : o.clientFd = some fd) (hreg : o.clientRegistered = true)
    (hit : s.items fd = some it) (hhandler : it.handler = .socksv5) (hdata : it.data = some a)
    (hpool : a ∈ s.pool) (halive : ∀ b ∈ s.pool, ∃ p, s.heap b = some p ∧ p.released = false)
    (k : Answers) : ∃ t, Step s (.run k) t ∧
      Becomes s t (.connectionClose a :: .clear fd (some a) :: .clientCloseFd a fd :: rest)
        (Function.update s.heap a (some { o with clientRegistered := false })) s.items s.fds
        (s.pool.erase a) := by
  let o' : Socks5 := { o with clientRegistered := false }
  let u : Server := ({ s with stack := rest }.set a o').push [.clientCloseFd a fd]
  let w : Server := { u with
    stack := .clear fd it.data :: u.stack
    books := { u.books with registrations := u.books.registrations.settle it.registration } }
  have hw : w.heap a = some o' := Function.update_self ..
  have hback : (w.set a o').heap = Function.update s.heap a (some o') := by
    show Function.update (Function.update s.heap a (some o')) a _ = _
    rw [Function.update_idem]
  have hall : (s.pool.all fun b => ((w.set a o').heap b).any fun p => !p.released) = true := by
    refine List.all_eq_true.mpr fun b hb => ?_
    rw [hback]
    by_cases hba : b = a
    · rw [hba, Function.update_self, Option.any_some]
      simp [o', hlive]
    · obtain ⟨p, hp, hlive⟩ := halive b hb
      rw [Function.update_of_ne hba, hp, Option.any_some, hlive]
      rfl
  have hremove := poolRemove_eq (s := (w.set a o').push [.connectionClose a]) hpool hall
  have hclose : selectorUnregisterFd u fd = socksv5Close w fd a := by
    rw [unregisterFd_eq (show u.items fd = some it from hit), handleClose_client hhandler hdata]
  have hstep : step s (.run k) = socksv5PoolRemove ((w.set a o').push [.connectionClose a]) a := by
    rw [step_run hstack]
    show clientClose { s with stack := rest } a = _
    unfold clientClose
    rw [owned_run ho hlive]
    split
    next hnone => cases hfd.symm.trans hnone
    next fd' hfd' =>
      obtain rfl := Option.some.inj (hfd.symm.trans hfd')
      rw [if_pos hreg]
      show selectorUnregisterFd u fd = _
      rw [hclose, socksv5Close_eq hw hlive hfd]
  refine ⟨_, hstep.trans hremove, ?_, hback, rfl, rfl, rfl, rfl, rfl⟩
  show .connectionClose a :: .clear fd it.data :: .clientCloseFd a fd :: rest = _
  rw [hdata]

theorem clears {d : Option ℕ} (hstack : s.stack = .clear n d :: rest) (k : Answers) :
    ∃ t, Step s (.run k) t ∧
      Becomes s t rest s.heap (Function.update s.items n none) s.fds s.pool :=
  ⟨_, step_run hstack k, rfl, rfl, rfl, rfl, rfl, rfl, rfl⟩

theorem closes_client (hstack : s.stack = .clientCloseFd a fd :: rest) (ho : s.heap a = some o)
    (hlive : o.released = false) (hfd : o.clientFd = some fd) (hsk : s.fds fd = some sk)
    (k : Answers) : ∃ t, Step s (.run k) t ∧
      Becomes s t rest (Function.update s.heap a (some { o with clientFd := none })) s.items
        (Function.update s.fds fd none) s.pool := by
  have hstep : step s (.run k) = (sysClose { s with stack := rest } fd).map fun t =>
      t.set a { o with clientFd := none } := by
    rw [step_run hstack]
    show clientCloseFd { s with stack := rest } a fd = _
    unfold clientCloseFd
    rw [owned_run ho hlive]
    simp only [hfd, if_true]
  rw [sysClose_eq (s := { s with stack := rest }) hsk] at hstep
  exact ⟨_, hstep, rfl, rfl, rfl, rfl, rfl, rfl, rfl⟩

/-- origin_close without an origin. -/
theorem closes_nothing (hstack : s.stack = .originClose a :: rest) (ho : s.heap a = some o)
    (hlive : o.released = false) (hreg : o.originRegistered = false) (k : Answers) :
    ∃ t, Step s (.run k) t ∧
      Becomes s t (.originCloseFd a :: rest) s.heap s.items s.fds s.pool := by
  have hstep : step s (.run k) = .ok ({ s with stack := rest }.push [.originCloseFd a]) := by
    rw [step_run hstack]
    show originClose { s with stack := rest } a = _
    unfold originClose
    rw [owned_run ho hlive, hreg]
  exact ⟨_, hstep, rfl, rfl, rfl, rfl, rfl, rfl, rfl⟩

/-- origin_close begins; selector_unregister_fd calls origin_connect_close. -/
theorem unregisters_origin (hstack : s.stack = .originClose a :: rest) (ho : s.heap a = some o)
    (hlive : o.released = false) (hfd : o.originFd = some n) (hreg : o.originRegistered = true)
    (hit : s.items n = some it) (hhandler : it.handler = .origin) (hdata : it.data = some a)
    (k : Answers) : ∃ t, Step s (.run k) t ∧
      Becomes s t (.clear n (some a) :: .originCloseFd a :: rest)
        (Function.update s.heap a (some { o with originRegistered := false })) s.items s.fds
        s.pool := by
  let o' : Socks5 := { o with originRegistered := false }
  let u : Server := ({ s with stack := rest }.set a o').push [.originCloseFd a]
  let w : Server := { u with
    stack := .clear n it.data :: u.stack
    books := { u.books with registrations := u.books.registrations.settle it.registration } }
  have hw : w.heap a = some o' := Function.update_self ..
  have hstep : step s (.run k) = .ok (w.set a o') := by
    rw [step_run hstack]
    show originClose { s with stack := rest } a = _
    unfold originClose
    rw [owned_run ho hlive]
    split
    next n' _ hfd' =>
      obtain rfl := Option.some.inj (hfd.symm.trans hfd')
      show selectorUnregisterFd u n = _
      rw [unregisterFd_eq (show u.items n = some it from hit), handleClose_origin hhandler hdata]
      exact originConnectClose_eq (o := o') hw hlive hfd
    next hnone => exact absurd hfd (hnone n hreg)
  refine ⟨_, hstep, ?_, ?_, rfl, rfl, rfl, rfl, rfl⟩
  · show .clear n it.data :: .originCloseFd a :: rest = _
    rw [hdata]
  · show Function.update (Function.update s.heap a (some o')) a _ = _
    rw [Function.update_idem]

theorem originCloseFd_becomes (ho : s.heap a = some o) (hlive : o.released = false)
    (hfd : o.originFd = some n) (hsk : s.fds n = some sk) : ∃ t, originCloseFd s a = .ok t ∧
      Becomes s t s.stack (Function.update s.heap a (some { o with originFd := none })) s.items
        (Function.update s.fds n none) s.pool := by
  have heq : originCloseFd s a =
      (sysClose s n).map fun t => t.set a { o with originFd := none } := by
    unfold originCloseFd
    rw [owned_eq ho hlive, hfd]
  rw [sysClose_eq hsk] at heq
  exact ⟨_, heq, rfl, rfl, rfl, rfl, rfl, rfl, rfl⟩

theorem closes_origin (hstack : s.stack = .originCloseFd a :: rest) (ho : s.heap a = some o)
    (hlive : o.released = false) (hfd : o.originFd = some n) (hsk : s.fds n = some sk)
    (k : Answers) : ∃ t, Step s (.run k) t ∧
      Becomes s t rest (Function.update s.heap a (some { o with originFd := none })) s.items
        (Function.update s.fds n none) s.pool := by
  obtain ⟨t, ht, hb⟩ := originCloseFd_becomes (s := { s with stack := rest }) ho hlive hfd hsk
  exact ⟨t, (step_run hstack k).trans ht, { hb with }⟩

theorem closes_no_origin (hstack : s.stack = .originCloseFd a :: rest) (ho : s.heap a = some o)
    (hlive : o.released = false) (hfd : o.originFd = none) (k : Answers) :
    ∃ t, Step s (.run k) t ∧ Becomes s t rest s.heap s.items s.fds s.pool := by
  have hstep : step s (.run k) = .ok { s with stack := rest } := by
    rw [step_run hstack]
    show originCloseFd { s with stack := rest } a = _
    unfold originCloseFd
    rw [owned_run ho hlive, hfd]
  exact ⟨_, hstep, rfl, rfl, rfl, rfl, rfl, rfl, rfl⟩

/-- The connection while it is closed; `ofd` is left of its sockets. -/
structure Parting (F : Set ℕ) (fd a : ℕ) (s : Server) (o : Socks5) (ofd : Option ℕ)
    (job : DnsJob) : Prop where
  heap : s.heap a = some o
  references : o.references = 1 + held s job
  released : o.released = false
  cancelled : o.cancelled = true
  originFd : o.originFd = ofd
  originRegistered : o.originRegistered = ofd.isSome
  client : s.fds fd = none ∧ s.items fd = none
  entry : ∀ n, ofd = some n → n ≠ fd ∧ (∃ sk, s.fds n = some sk) ∧
    ∃ it, s.items n = some it ∧ it.handler = .origin ∧ it.data = some a
  free : ∀ n ∈ F, ofd ≠ some n → s.fds n = none ∧ s.items n = none
  pool : a ∉ s.pool
  unlocked : s.locked a = false
  worker : job = .resolving → Resolving fd a s

/-- A close asks the kernel for nothing. -/
def silent : Answers :=
  { attempt := fun _ => ⟨.error .ENOMEM, none, .ok⟩, spawn := .noMemory, fits := true }

theorem Becomes.locked (h : Becomes s t fs heap items fds pool) : t.locked a = s.locked a := by
  unfold Server.locked
  rw [h.workers]

theorem Becomes.resolving (h : Becomes s t fs heap items fds pool) (hs : Resolving fd a s) :
    Resolving fd a t := by
  unfold Resolving
  rwa [h.workers]

theorem Becomes.held (h : Becomes s t fs heap items fds pool) (job : DnsJob) :
    held t job = held s job := by
  unfold ServerViews.held
  rw [h.jobs]

/-- The first half of a close: the client is out of the pool, and its socket closed. -/
theorem stands_client_gone (h : Stands F fd a s o v)
    (hstack : s.stack = .connectionClose a :: rest) :
    ∃ t o', Leads Step s t ∧ t.stack = .originClose a :: .release a :: rest ∧ t.jobs = s.jobs ∧
      Parting F fd a t o' (v.origin.map Prod.fst) v.dnsJob := by
  have hold := h.around
  obtain ⟨r, hit⟩ := hold.client
  obtain ⟨sk, hsk⟩ := hold.clientOpen
  obtain ⟨s₁, h₁, b₁⟩ := closes_first hstack h.heap h.same.released h.same.closing silent
  have ho₁ : s₁.heap a = some { o with closing := true } := by
    rw [b₁.heap, Function.update_self]
  obtain ⟨s₂, h₂, b₂⟩ := cancels b₁.stack ho₁ h.same.released (b₁.locked.trans hold.unlocked) silent
  have hheap₂ : s₂.heap =
      Function.update s.heap a (some { o with closing := true, cancelled := true }) := by
    rw [b₂.heap, b₁.heap, Function.update_idem]
  have ho₂ : s₂.heap a = some { o with closing := true, cancelled := true } := by
    rw [hheap₂, Function.update_self]
  have hpool₂ : s₂.pool = s.pool := b₂.pool.trans b₁.pool
  have halive : ∀ b ∈ s₂.pool, ∃ p, s₂.heap b = some p ∧ p.released = false := by
    intro b hb
    by_cases hba : b = a
    · subst hba
      exact ⟨{ o with closing := true, cancelled := true }, ho₂, h.same.released⟩
    · rw [hpool₂] at hb
      obtain ⟨p, hp, hlive⟩ := hold.alive b hb
      exact ⟨p, by rw [hheap₂, Function.update_of_ne hba, hp], hlive⟩
  have hitems₂ : s₂.items = s.items := b₂.items.trans b₁.items
  obtain ⟨s₃, h₃, b₃⟩ := unregisters_client b₂.stack ho₂ h.same.released h.same.clientFd
    h.same.clientRegistered (hitems₂ ▸ hit) rfl rfl (hpool₂ ▸ hold.pool) halive silent
  -- socksv5_close has called socks5_connection_close, which returns at once
  have ho₃ : s₃.heap a =
      some { o with closing := true, cancelled := true, clientRegistered := false } := by
    rw [b₃.heap, Function.update_self]
  obtain ⟨s₄, h₄, b₄⟩ := closes_again b₃.stack ho₃ h.same.released rfl silent
  obtain ⟨s₅, h₅, b₅⟩ := clears b₄.stack silent
  have ho₅ : s₅.heap a =
      some { o with closing := true, cancelled := true, clientRegistered := false } := by
    rw [b₅.heap, b₄.heap, ho₃]
  have hfds₅ : s₅.fds = s.fds := by
    rw [b₅.fds, b₄.fds, b₃.fds, b₂.fds, b₁.fds]
  have hitems₅ : s₅.items = Function.update s.items fd none := by
    rw [b₅.items, b₄.items, b₃.items, hitems₂]
  obtain ⟨s₆, h₆, b₆⟩ := closes_client b₅.stack ho₅ h.same.released h.same.clientFd
    (hfds₅ ▸ hsk) silent
  have hfds : s₆.fds = Function.update s.fds fd none := by rw [b₆.fds, hfds₅]
  have hitems : s₆.items = Function.update s.items fd none := b₆.items.trans hitems₅
  have hpool : s₆.pool = s.pool.erase a := by
    rw [b₆.pool, b₅.pool, b₄.pool, b₃.pool, hpool₂]
  have hheld : held s₆ v.dnsJob = held s v.dnsJob := by
    rw [b₆.held, b₅.held, b₄.held, b₃.held, b₂.held, b₁.held]
  refine ⟨s₆, { o with
      closing := true, cancelled := true, clientRegistered := false, clientFd := none },
    ?_, b₆.stack, ?_, Parting.mk ?_ ?_ h.same.released rfl ?_ ?_ ?_ ?_ ?_ ?_ ?_ ?_⟩
  · exact .head h₁ (.head h₂ (.head h₃ (.head h₄ (.head h₅ (.single h₆)))))
  · rw [b₆.jobs, b₅.jobs, b₄.jobs, b₃.jobs, b₂.jobs, b₁.jobs]
  · rw [b₆.heap, Function.update_self]
  · rw [hheld]
    exact h.references
  · exact h.same.originFd
  · rw [Option.isSome_map]
    exact h.same.originRegistered
  · rw [hfds, hitems, Function.update_self, Function.update_self]
    exact ⟨rfl, rfl⟩
  · intro n hn
    obtain ⟨⟨n', i⟩, hv, rfl⟩ := Option.map_eq_some_iff.mp hn
    have hne := hold.origin_ne hv
    obtain ⟨-, hopen⟩ := hold.originOpen n' i hv
    obtain ⟨r', hit'⟩ := hold.origin n' i hv
    refine ⟨hne, ?_, ⟨.origin, i, some a, r'⟩, ?_, rfl, rfl⟩
    · rw [hfds, Function.update_of_ne hne]
      exact hopen
    · rw [hitems, Function.update_of_ne hne, hit']
  · intro n hn hne
    obtain ⟨hn₁, hn₂⟩ := hold.free n hn (by
      intro i hi
      exact hne (by rw [hi]; rfl))
    rw [hfds, hitems]
    by_cases hnfd : n = fd
    · rw [hnfd, Function.update_self, Function.update_self]
      exact ⟨rfl, rfl⟩
    · rw [Function.update_of_ne hnfd, Function.update_of_ne hnfd]
      exact ⟨hn₁, hn₂⟩
  · rw [hpool]
    exact hold.nodup.not_mem_erase
  · rw [b₆.locked, b₅.locked, b₄.locked, b₃.locked, b₂.locked, b₁.locked]
    exact hold.unlocked
  · intro hjob
    exact b₆.resolving (b₅.resolving (b₄.resolving (b₃.resolving (b₂.resolving
      (b₁.resolving (hold.worker hjob))))))

/-- The second half: the origin socket, if there is one. -/
theorem Parting.origin_gone {ofd : Option ℕ} {job : DnsJob} (h : Parting F fd a s o ofd job)
    (hstack : s.stack = .originClose a :: rest) :
    ∃ t o', Leads Step s t ∧ t.stack = rest ∧ t.jobs = s.jobs ∧
      Parting F fd a t o' none job := by
  cases ofd with
  | none =>
    obtain ⟨s₁, h₁, b₁⟩ := closes_nothing hstack h.heap h.released h.originRegistered silent
    obtain ⟨s₂, h₂, b₂⟩ := closes_no_origin b₁.stack (b₁.heap ▸ h.heap) h.released h.originFd silent
    refine ⟨s₂, o, .head h₁ (.single h₂), b₂.stack, b₂.jobs.trans b₁.jobs,
      Parting.mk ?_ ?_ h.released h.cancelled h.originFd h.originRegistered ?_ ?_ ?_ ?_ ?_ ?_⟩
    · rw [b₂.heap, b₁.heap, h.heap]
    · rw [b₂.held, b₁.held]
      exact h.references
    · rw [b₂.fds, b₁.fds, b₂.items, b₁.items]
      exact h.client
    · exact fun n hn => absurd hn (by simp)
    · rw [b₂.fds, b₁.fds, b₂.items, b₁.items]
      exact h.free
    · rw [b₂.pool, b₁.pool]
      exact h.pool
    · rw [b₂.locked, b₁.locked]
      exact h.unlocked
    · exact fun hjob => b₂.resolving (b₁.resolving (h.worker hjob))
  | some n =>
    obtain ⟨hne, ⟨sk, hsk⟩, it, hit, hhandler, hdata⟩ := h.entry n rfl
    obtain ⟨s₁, h₁, b₁⟩ := unregisters_origin hstack h.heap h.released h.originFd
      h.originRegistered hit hhandler hdata silent
    have ho₁ : s₁.heap a = some { o with originRegistered := false } := by
      rw [b₁.heap, Function.update_self]
    obtain ⟨s₂, h₂, b₂⟩ := clears b₁.stack silent
    have ho₂ : s₂.heap a = some { o with originRegistered := false } := b₂.heap ▸ ho₁
    obtain ⟨s₃, h₃, b₃⟩ := closes_origin b₂.stack ho₂ h.released h.originFd
      (by rw [b₂.fds, b₁.fds, hsk]) silent
    have hfds : s₃.fds = Function.update s.fds n none := by rw [b₃.fds, b₂.fds, b₁.fds]
    have hitems : s₃.items = Function.update s.items n none := by rw [b₃.items, b₂.items, b₁.items]
    refine ⟨s₃, { o with originRegistered := false, originFd := none },
      .head h₁ (.head h₂ (.single h₃)), b₃.stack, ?_,
      Parting.mk ?_ ?_ h.released h.cancelled rfl rfl ?_ ?_ ?_ ?_ ?_ ?_⟩
    · rw [b₃.jobs, b₂.jobs, b₁.jobs]
    · rw [b₃.heap, Function.update_self]
    · rw [b₃.held, b₂.held, b₁.held]
      exact h.references
    · rw [hfds, hitems, Function.update_of_ne hne.symm, Function.update_of_ne hne.symm]
      exact h.client
    · exact fun n hn => absurd hn (by simp)
    · intro m hm _
      rw [hfds, hitems]
      by_cases hmn : m = n
      · rw [hmn, Function.update_self, Function.update_self]
        exact ⟨rfl, rfl⟩
      · rw [Function.update_of_ne hmn, Function.update_of_ne hmn]
        exact h.free m hm fun heq => hmn (Option.some.inj heq).symm
    · rw [b₃.pool, b₂.pool, b₁.pool]
      exact h.pool
    · rw [b₃.locked, b₂.locked, b₁.locked]
      exact h.unlocked
    · exact fun hjob => b₃.resolving (b₂.resolving (b₁.resolving (h.worker hjob)))

theorem release_one {p : Socks5} (hp : s.heap a = some p) (hone : p.references = 1) :
    socks5Release s a = .ok (socks5Free s a p) := by
  unfold socks5Release
  rw [hp]
  simp only [hone]

theorem release_more {p : Socks5} (hp : s.heap a = some p) (hmore : p.references = n + 2) :
    socks5Release s a = .ok (s.set a { p with references := n + 1 }) := by
  unfold socks5Release
  rw [hp]
  simp only [hmore]

/-- The initial reference is released; the memory is freed when it was the last one. -/
theorem Parting.released_last {job : DnsJob} (h : Parting F fd a s o none job)
    (hstack : s.stack = .release a :: rest) :
    ∃ t, Leads Step s t ∧ t.stack = rest ∧ t.jobs = s.jobs ∧ Left F fd a t job := by
  let p : Socks5 := { o with released := true }
  let w : Server := { ({ s with stack := rest } : Server).set a p with
    books := { s.books with owners := s.books.owners.settle o.serial } }
  have hw : w.heap a = some p := Function.update_self ..
  have hstep : step s (.run silent) = socks5Release w a := by
    rw [step_run hstack]
    show ownerRelease { s with stack := rest } a = _
    unfold ownerRelease
    rw [owned_run h.heap h.released]
  have hrefs : p.references = 1 + held s job := h.references
  cases hheld : held s job with
  | zero =>
    have hone : p.references = 1 := by omega
    refine ⟨_, .single (hstep.trans (release_one hw hone)), rfl, rfl, h.client,
      fun n hn => h.free n hn (by simp), h.pool, h.unlocked, h.worker,
      Or.inl ⟨hheld, Function.update_self ..⟩⟩
  | succ m =>
    have hmore : p.references = m + 2 := by omega
    refine ⟨_, .single (hstep.trans (release_more hw hmore)), rfl, rfl, h.client,
      fun n hn => h.free n hn (by simp), h.pool, h.unlocked, h.worker,
      Or.inr ⟨_, Function.update_self .., hheld.symm, ?_, h.cancelled⟩⟩
    show 0 < held s job
    rw [hheld]
    exact Nat.succ_pos m

/-- socks5_connection_close of an open connection. -/
theorem stands_close (h : Stands F fd a s o v) (hstack : s.stack = .connectionClose a :: rest) :
    ∃ t, Leads Step s t ∧ t.stack = rest ∧ t.jobs = s.jobs ∧ Left F fd a t v.dnsJob := by
  obtain ⟨s₁, o₁, hlead₁, hstack₁, hjobs₁, hpart₁⟩ := stands_client_gone h hstack
  obtain ⟨s₂, o₂, hlead₂, hstack₂, hjobs₂, hpart₂⟩ := hpart₁.origin_gone hstack₁
  obtain ⟨s₃, hlead₃, hstack₃, hjobs₃, hleft⟩ := hpart₂.released_last hstack₂
  exact ⟨s₃, hlead₁.trans (hlead₂.trans hlead₃), hstack₃, hjobs₃.trans (hjobs₂.trans hjobs₁), hleft⟩

end SocksProxy.ServerPartings
