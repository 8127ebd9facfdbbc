import SocksProxy.ServerRuns

/-!
What the invariant says in every state that the server can reach: who holds a
reference, which connection an entry of the selector belongs to, on which one a
lookup was reported, and what is left of a connection that has ended.
-/
namespace SocksProxy.ServerOwners

open Kernel Request Ledgers ServerState ServerSteps ServerRefs ServerSockets ServerLookups
open ServerEntries ServerPool ServerParts ServerStages ServerRuns Runs
open ConnState (Socks5State FdInterest OP_NOOP OP_READ OP_WRITE)

variable {s t : Server} {b : Bottom} {d : Doing} {a fd k : ℕ} {o : Socks5} {side : Side}
variable {es : List Event}

section Played

/-- The events `es` one after the other. -/
def play (s : Server) (es : List Event) : Except Halt Server := es.foldlM step s

theorem play_run (h : play s es = .ok t) : Run Step s es t := Run.of_foldlM_ok id h

theorem reachable_play (es : List Event) (h : play serverInit es = .ok t) : Reachable t :=
  ⟨es, play_run h⟩

/-- Answers for a step that asks for none, or for a worker that is started. -/
def plain : Answers :=
  { attempt := fun _ => { socket := .error .ECONNREFUSED, setNio := none, connect := .ok }
    spawn := .started
    fits := true }

/-- A client connects and asks for a host by its name. -/
def asks (a fd : ℕ) : List Event :=
  [.accept fd true (some a),
    .clientRead fd (.goes .helloWrite true) (.closes ⟨0, .again⟩) plain,
    .clientWrite fd (.goes .authRead false) (.closes ⟨0, .again⟩),
    .clientRead fd (.goes .authWrite true) (.closes ⟨0, .again⟩) plain,
    .clientWrite fd (.goes .requestRead false) (.closes ⟨0, .again⟩),
    .clientRead fd (.dials SOCKS5_ATYP_DOMAINNAME) (.closes ⟨0, .again⟩) plain,
    .run plain, .run plain]

/-- The worker `i` finds an address and queues its job. -/
def finds (i : ℕ) : List Event :=
  [.worker i (.finish 0 [{ stream := true, addr := .inet (.replicate 4 10) (.replicate 2 0) }]),
    .worker i (.notify true), .worker i .unlock]

/-- The main thread reports the job of the list; the socket of the origin is `fd`. -/
def reports (fd : ℕ) : List Event :=
  let k : Answers := { plain with
    attempt := fun _ => { socket := .ok fd, setNio := none, connect := .inProgress } }
  [.notifications, .run k, .run plain, .run plain]

/-- The client hangs up, and the connection without origin is closed. -/
def hangsUp (fd : ℕ) : List Event :=
  .clientRead fd .closes (.closes ⟨0, .again⟩) plain :: List.replicate 9 (.run plain)

end Played

section References

theorem held_count {ι α : Type*} [BEq α] [LawfulBEq α] {l : Ledger α} {f : ι → Option α} {x : α}
    (h : l.Held f) (hx : x ∈ l.issued) :
    l.settled.count x ≤ 1 ∧ (l.settled.count x = 0 ↔ ∃ i, f i = some x) := by
  refine ⟨List.nodup_iff_count_le_one.mp h.balanced.settled_nodup x, ?_⟩
  rw [List.count_eq_zero, h.balanced.settled_iff hx, not_not]

theorem balanced_count {l : Ledger ℕ} {live : ℕ → Prop} (h : l.Balanced live)
    (hk : k ∈ l.issued) : l.settled.count k ≤ 1 ∧ (l.settled.count k = 0 ↔ live k) := by
  refine ⟨List.nodup_iff_count_le_one.mp h.settled_nodup k, ?_⟩
  rw [List.count_eq_zero, h.settled_iff hk, not_not]

/-- The references of a connection are those of its owner, of its workers and of its
queued jobs; it is freed when the last is gone, once, and so is every list that
getaddrinfo returned. Nothing that was freed is used again. -/
theorem references_counted (h : Reachable s) :
    (∀ a o, s.heap a = some o →
      o.references =
        (if o.released then 0 else 1) + holders s.workers a + queued s.jobs a ∧
      0 < o.references) ∧
    (∀ k ∈ s.books.states.issued, s.books.states.settled.count k ≤ 1 ∧
      (s.books.states.settled.count k = 0 ↔ ∃ a o, s.heap a = some o ∧ o.serial = k)) ∧
    (∀ r ∈ s.books.results.issued, s.books.results.settled.count r ≤ 1 ∧
      (s.books.results.settled.count r = 0 ↔
        (∃ a o, s.heap a = some o ∧ o.dnsResult = some r) ∨
        ∃ w ∈ s.workers, w.state.result = some r)) ∧
    ∀ e, step s e ≠ .error .fault := by
  obtain ⟨d, b, hok⟩ := reachable_ok h
  have hparts := hok.ground.parts
  refine ⟨?_, ?_, ?_, reachable_no_fault h⟩
  · intro a o ho
    have heq := hparts.refs.references_eq a o ho
    simp only [holdings, reduceCtorEq, if_false, Nat.add_zero] at heq
    exact ⟨heq, hparts.refs.references_pos a o ho⟩
  · intro k hk
    exact balanced_count hparts.refs.states_balanced hk
  · intro r hr
    obtain ⟨hle, hzero⟩ := held_count hparts.results.held hr
    refine ⟨hle, hzero.trans ⟨?_, ?_⟩⟩
    · rintro ⟨a | i, hheld⟩
      · obtain ⟨o, ho, hres⟩ := Option.bind_eq_some_iff.mp hheld
        exact Or.inl ⟨a, o, ho, hres⟩
      · obtain ⟨w, hw, hres⟩ := Option.bind_eq_some_iff.mp hheld
        exact Or.inr ⟨w, List.mem_of_getElem? hw, hres⟩
    · rintro (⟨a, o, ho, hres⟩ | ⟨w, hw, hres⟩)
      · exact ⟨.inl a, Option.bind_eq_some_iff.mpr ⟨o, ho, hres⟩⟩
      · obtain ⟨i, hi⟩ := List.mem_iff_getElem?.mp hw
        exact ⟨.inr i, Option.bind_eq_some_iff.mpr ⟨w, hi, hres⟩⟩

theorem references_counted_queued : ∃ t o, play serverInit (asks 1 5 ++ finds 0) = .ok t ∧
    t.heap 1 = some o ∧ o.references = 2 ∧
    o.references =
      (if o.released then 0 else 1) + holders t.workers 1 + queued t.jobs 1 :=
  ⟨_, _, rfl, rfl, rfl,
    ((references_counted (reachable_play (asks 1 5 ++ finds 0) rfl)).1 1 _ rfl).1⟩

end References

section Routing

/-- Who is registered is open. -/
theorem released_of_registered {borrowed : Option ℕ} {jobs pending : List BlockingJob}
    {clearing : List ℕ} (h : Parts borrowed s jobs pending clearing) (side : Side)
    (ho : s.heap a = some o) (hreg : sideRegistered side o = true) : o.released = false := by
  by_contra hrel
  have hgone := h.gone a o ho (by simpa using hrel)
  exact absurd (hreg.symm.trans (hgone.unregistered side)) (by simp)

/-- Between two events an entry of a connection names the connection that has its
descriptor, which no other connection has. A lookup is reported at most once, and
only on the connection that asked for it. -/
theorem entries_and_lookups_routed (h : Reachable s) (hidle : s.stack = []) :
    (∀ fd it, s.items fd = some it → it.handler ≠ .other →
      ∃ side a o, it.handler = handlerOf side ∧ it.data = some a ∧ s.heap a = some o ∧
        o.released = false ∧ sideFd side o = some fd) ∧
    (∀ fd a b o o' side side', s.heap a = some o → s.heap b = some o' →
      sideFd side o = some fd → sideFd side' o' = some fd → a = b ∧ side = side') ∧
    (∀ a b o o', s.heap a = some o → s.heap b = some o' → o.serial = o'.serial → a = b) ∧
    s.books.states.issued.Nodup ∧
    (∀ (i j : ℕ) w w', s.workers[i]? = some w → s.workers[j]? = some w' →
      w.lookup = w'.lookup → i = j) ∧
    (∀ p ∈ s.books.blockDone, p.1 = p.2.serial ∧
      ∃ (i : ℕ) (w : DnsWorker), s.workers[i]? = some w ∧ w.lookup = p.2 ∧
        w.state.flying = false) ∧
    (s.books.blockDone.map Prod.snd).Nodup := by
  obtain ⟨d, b, hok⟩ := reachable_ok h
  have hparts := (idle_of_empty hok hidle).ground.parts
  refine ⟨?_, ?_, hparts.refs.serial_inj, hparts.refs.states_balanced.issued_nodup, ?_, ?_,
    hparts.lookups.done_nodup⟩
  · intro fd it hit hhandler
    obtain ⟨side, a, o, hside, hdata, ho, hreg, hfd, -⟩ :=
      hparts.entries.entry fd it hit (by simp [Doing.clearing, Bottom.clearing]) hhandler
    exact ⟨side, a, o, hside, hdata, ho, released_of_registered hparts side ho hreg, hfd⟩
  · intro fd a b o o' side side' ho ho' hfd hfd'
    obtain ⟨sk, hsk, howner, hside⟩ := hparts.sockets.stored_open a o side fd ho hfd
    obtain ⟨sk', hsk', howner', hside'⟩ := hparts.sockets.stored_open b o' side' fd ho' hfd'
    obtain rfl : sk = sk' := Option.some.inj (hsk.symm.trans hsk')
    have hserial : o.serial = o'.serial := Option.some.inj (howner.symm.trans howner')
    exact ⟨hparts.refs.serial_inj a b o o' ho ho' hserial, hside.symm.trans hside'⟩
  · intro i j w w' hi hj heq
    have hn := hparts.lookups.numbered i w hi
    have hn' := hparts.lookups.numbered j w' hj
    rw [← hn, ← hn', heq]
  · intro p hp
    obtain ⟨hserial, -, hworker⟩ := hparts.lookups.done_once p hp
    exact ⟨hserial, hworker⟩

/-- The name was found and the origin is being connected to under descriptor 6. -/
theorem entries_and_lookups_routed_dialed :
    ∃ t it, play serverInit (asks 1 5 ++ finds 0 ++ reports 6) = .ok t ∧ t.items 6 = some it ∧
      t.books.blockDone = [(0, ⟨0, 0⟩)] ∧
      ∃ side a o, it.handler = handlerOf side ∧ it.data = some a ∧ t.heap a = some o ∧
        o.released = false ∧ sideFd side o = some 6 :=
  ⟨_, _, rfl, rfl, rfl,
    (entries_and_lookups_routed
      (reachable_play (asks 1 5 ++ finds 0 ++ reports 6) rfl) rfl).1 6 _ rfl (by decide)⟩

end Routing

section TearDown

/-- The connection was accepted, and its initial reference is gone. -/
def Ended (s : Server) (k : ℕ) : Prop :=
  k < s.accepted ∧ ∀ a o, s.heap a = some o → o.serial = k → o.released = true

theorem ended_of_settled (h : Reachable s) (hk : k < s.accepted)
    (hsettled : k ∈ s.books.owners.settled) : Ended s k := by
  obtain ⟨d, b, hok⟩ := reachable_ok h
  refine ⟨hk, ?_⟩
  intro a o ho hserial
  by_contra hopen
  exact hok.ground.parts.refs.owners_balanced.unsettled k
    ⟨a, o, ho, hserial, by simpa using hopen⟩ hsettled

/-- selector_unregister_fd has called handle_close for `fd`, and will clear the entry. -/
def Clearing (s : Server) (fd : ℕ) : Prop := ∃ data, Frame.clear fd data ∈ s.stack

/-- Whatever the connection had was given back once, and nothing refers to it. -/
structure TornDown (s : Server) (k : ℕ) : Prop where
  sockets : ∀ sk ∈ s.books.sockets.issued, sk.owner = some k → s.books.sockets.settled.count sk = 1
  registrations : ∀ r ∈ s.books.registrations.issued, r.owner = some k →
    s.books.registrations.settled.count r = 1
  entries : ∀ fd it, s.items fd = some it → ¬ Clearing s fd →
    it.registration.owner ≠ some k ∧
      (it.handler ≠ .other → ∀ a o, it.data = some a → s.heap a = some o → o.serial ≠ k)
  pool : ∀ a ∈ s.pool, ∀ o, s.heap a = some o → o.serial ≠ k
  fds : ∀ a o, s.heap a = some o → o.serial = k → o.clientFd = none ∧ o.originFd = none
  owner : k ∈ s.books.owners.issued → s.books.owners.settled.count k = 1

theorem clearing_of_mem (h : Ok s d b) (hmem : fd ∈ d.clearing ++ b.clearing) : Clearing s fd := by
  have hstack := h.ground.stack
  rcases List.mem_append.mp hmem with hd | hb
  · cases d <;> simp only [Doing.clearing, List.mem_singleton, List.not_mem_nil] at hd
    all_goals
      subst hd
      exact ⟨_, by rw [hstack]; simp [Doing.frames]; exact Or.inl rfl⟩
  · cases b <;> simp only [Bottom.clearing, List.mem_singleton, List.not_mem_nil] at hb
    all_goals
      subst hb
      exact ⟨_, by rw [hstack]; simp [Bottom.frames]; exact Or.inr rfl⟩

/-- An entry that stays belongs to a connection that is open, or to none. -/
theorem entry_owner (h : Ok s d b) {it : Item} (hit : s.items fd = some it)
    (hclear : fd ∉ d.clearing ++ b.clearing) :
    it.handler = .other ∧ it.registration.owner = none ∨
    ∃ a o, it.data = some a ∧ s.heap a = some o ∧ o.released = false ∧
      it.registration.owner = some o.serial := by
  have hparts := h.ground.parts
  by_cases hhandler : it.handler = .other
  · exact Or.inl ⟨hhandler, (hparts.entries.other fd it hit hclear hhandler).1⟩
  · obtain ⟨side, a, o, -, hdata, ho, hreg, -, howner⟩ :=
      hparts.entries.entry fd it hit hclear hhandler
    exact Or.inr ⟨a, o, hdata, ho, released_of_registered hparts side ho hreg, howner⟩

theorem tornDown_of_ended (h : Ok s d b) (hend : Ended s k) : TornDown s k := by
  have hparts := h.ground.parts
  refine ⟨?_, ?_, ?_, ?_, ?_, ?_⟩
  · intro sk hsk howner
    apply hparts.sockets.held.balanced.count_settled hsk
    rintro ⟨fd, hfd⟩
    obtain ⟨a, o, ho, hserial, hstored⟩ :=
      hparts.sockets.open_stored fd sk k hfd howner (by simp)
    have hgone := hparts.gone a o ho (hend.2 a o ho hserial)
    rw [hgone.fds] at hstored
    cases hstored
  · intro r hr howner
    apply hparts.entries.held.balanced.count_settled hr
    rintro ⟨fd, hfd⟩
    rw [registrationOf] at hfd
    split at hfd
    next => cases hfd
    next hclear =>
      obtain ⟨it, hit, rfl⟩ := Option.map_eq_some_iff.mp hfd
      rcases entry_owner h hit hclear with ⟨-, hnone⟩ | ⟨a, o, -, ho, hopen, hsome⟩
      · rw [hnone] at howner
        cases howner
      · have hserial : o.serial = k := Option.some.inj (hsome.symm.trans howner)
        exact absurd (hend.2 a o ho hserial) (by simp [hopen])
  · intro fd it hit hclear
    have hmem : fd ∉ d.clearing ++ b.clearing := fun hmem => hclear (clearing_of_mem h hmem)
    rcases entry_owner h hit hmem with ⟨hother, hnone⟩ | ⟨a, o, hdata, ho, hopen, hsome⟩
    · exact ⟨by simp [hnone], fun hne => absurd hother hne⟩
    · have hserial : o.serial ≠ k := fun hserial =>
        absurd (hend.2 a o ho hserial) (by simp [hopen])
      refine ⟨?_, ?_⟩
      · rw [hsome]
        exact fun heq => hserial (Option.some.inj heq)
      · intro _ c p hc hp
        obtain rfl : a = c := Option.some.inj (hdata.symm.trans hc)
        obtain rfl : o = p := Option.some.inj (ho.symm.trans hp)
        exact hserial
  · intro a ha o ho hserial
    obtain ⟨p, hp, hreg⟩ := (hparts.pool.mem_iff a).mp ha
    obtain rfl : p = o := Option.some.inj (hp.symm.trans ho)
    have hopen := released_of_registered hparts .client ho hreg
    exact absurd (hend.2 a p ho hserial) (by simp [hopen])
  · intro a o ho hserial
    have hgone := hparts.gone a o ho (hend.2 a o ho hserial)
    exact ⟨hgone.fds .client, hgone.fds .origin⟩
  · intro hk
    apply hparts.refs.owners_balanced.count_settled hk
    rintro ⟨a, o, ho, hserial, hopen⟩
    exact absurd (hend.2 a o ho hserial) (by simp [hopen])

/-- After the first loop of selector_destroy every connection has ended. -/
theorem released_of_gone (h : Ok s d b) (hgone : s.selectorGone = true) (ho : s.heap a = some o) :
    o.released = true := by
  have hparts := h.ground.parts
  have hbottom : (b = .destroyJobs ∨ b = .ended) ∧ d = .nothing := by
    have hstack := h.ground.stack
    have hallowed := h.allowed
    have hmem : Frame.destroyJobs ∈ s.stack ∨ Frame.ended ∈ s.stack := by
      simpa [Server.selectorGone] using hgone
    rw [hstack, List.mem_append, List.mem_append] at hmem
    have hb : b = .destroyJobs ∨ b = .ended := by
      cases b <;> cases d <;> simp [Doing.frames, Bottom.frames] at hmem ⊢
    refine ⟨hb, ?_⟩
    rcases hb with rfl | rfl <;> cases d <;>
      first | rfl | exact absurd hallowed (by simp [Allowed, Bottom.closes, Bottom.serves])
  by_contra hopen
  have hitems : ∀ e, s.items e = none := by
    have hfooting := h.ground.footing
    rcases hbottom.1 with rfl | rfl <;> exact hfooting
  obtain ⟨-, rfl⟩ := hbottom
  have hstanding := h.ground.standing a o ho (by simpa using hopen) (by simp [Doing.subject])
  obtain ⟨fd, it, -, hit, -⟩ :=
    hparts.entries.registered a o .client ho hstanding.clientRegistered
  rw [hitems fd] at hit
  cases hit

/-- Nothing is given back twice, and of a connection that has ended everything was
given back. It has ended when nobody is at work on it any more. -/
theorem torn_down_once (h : Reachable s) :
    (∀ k, Ended s k → TornDown s k) ∧
    s.books.sockets.settled.Nodup ∧ s.books.registrations.settled.Nodup ∧
    s.books.owners.settled.Nodup ∧
    (s.stack = [] → ∀ a o, s.heap a = some o → o.closing = true → o.released = true) ∧
    (s.selectorGone = true → ∀ a o, s.heap a = some o → o.released = true) ∧
    ∀ e, step s e ≠ .error .fault := by
  obtain ⟨d, b, hok⟩ := reachable_ok h
  have hparts := hok.ground.parts
  refine ⟨fun k hend => tornDown_of_ended hok hend, hparts.sockets.held.balanced.settled_nodup,
    hparts.entries.held.balanced.settled_nodup, hparts.refs.owners_balanced.settled_nodup, ?_,
    fun hgone a o ho => released_of_gone hok hgone ho, reachable_no_fault h⟩
  intro hidle a o ho hclosing
  by_contra hopen
  have hstanding := (idle_of_empty hok hidle).ground.standing a o ho (by simpa using hopen)
    (by simp [Doing.subject])
  exact absurd hclosing (by simp [hstanding.closing])

theorem torn_down_once_hung_up :
    ∃ t, play serverInit (.accept 5 true (some 1) :: hangsUp 5) = .ok t ∧
      t.books.sockets.issued = [⟨some 0, .client, 0⟩] ∧ TornDown t 0 := by
  have hreach := reachable_play (.accept 5 true (some 1) :: hangsUp 5) rfl
  exact ⟨_, rfl, rfl, (torn_down_once hreach).1 0
    (ended_of_settled hreach Nat.one_pos (List.mem_singleton.mpr rfl))⟩

end TearDown

end SocksProxy.ServerOwners
