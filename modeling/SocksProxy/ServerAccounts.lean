import Mathlib.Data.List.Nodup
import SocksProxy.ServerOwners

/-!
The counters of the server against its pool and its table. The gauge of open
connections and the count of all connections are words of 64 bits; only the
second one can outgrow its word.
-/
namespace SocksProxy.ServerAccounts

open Kernel Ledgers ServerState ServerSteps ServerRefs ServerSockets ServerEntries ServerPool
open ServerParts ServerStages ServerRuns ServerOwners Runs
open ConnState (FdInterest OP_NOOP OP_READ OP_WRITE)

variable {s t : Server} {b : Bottom} {d : Doing}

section Counted

/-- The entry has the handler of clients. -/
def isClient (s : Server) (fd : ℕ) : Bool := (s.items fd).any fun it => it.handler = .socksv5

/-- The descriptors of the table that are clients'. -/
def clientEntries (s : Server) : List ℕ := (List.range ITEMS_MAX_SIZE).filter (isClient s)

theorem mem_clientEntries (h : Ok s .nothing .idle) (fd : ℕ) :
    fd ∈ clientEntries s ↔ ∃ it a o, s.items fd = some it ∧ it.data = some a ∧
      s.heap a = some o ∧ o.clientRegistered = true ∧ o.clientFd = some fd := by
  have hentries := h.ground.parts.entries
  have hclear : ∀ fd, fd ∉ Doing.nothing.clearing ++ Bottom.idle.clearing := by
    simp [Doing.clearing, Bottom.clearing]
  simp only [clientEntries, List.mem_filter, List.mem_range, isClient, Option.any_eq_true,
    decide_eq_true_eq]
  constructor
  · rintro ⟨-, it, hit, hhandler⟩
    obtain ⟨side, a, o, hside, hdata, ho, hreg, hfd, -⟩ :=
      hentries.entry fd it hit (hclear fd) (by simp [hhandler])
    cases side with
    | client => exact ⟨it, a, o, hit, hdata, ho, hreg, hfd⟩
    | origin => exact absurd (hhandler.symm.trans hside) (by simp [handlerOf])
  · rintro ⟨it, a, o, hit, -, ho, hreg, hfd⟩
    obtain ⟨fd', it', hfd', hit', -, hhandler, -⟩ := hentries.registered a o .client ho hreg
    obtain rfl : fd = fd' := Option.some.inj (hfd.symm.trans hfd')
    exact ⟨hentries.fd_lt fd it hit, it', hit', hhandler⟩

/-- Between two events the entries of clients name the members of the pool. -/
theorem clientEntries_length (h : Ok s .nothing .idle) :
    (clientEntries s).length = s.pool.length := by
  have hpool := h.ground.parts.pool
  let named : ℕ → ℕ := fun fd => ((s.items fd).bind Item.data).getD 0
  have hnodup : ((clientEntries s).map named).Nodup := by
    apply List.Nodup.map_on _ (List.nodup_range.filter _)
    intro fd hmem fd' hmem' heq
    obtain ⟨it, a, o, hit, hdata, ho, -, hfd⟩ := (mem_clientEntries h fd).mp hmem
    obtain ⟨it', a', o', hit', hdata', ho', -, hfd'⟩ := (mem_clientEntries h fd').mp hmem'
    simp only [named, hit, hit', Option.bind_some, hdata, hdata', Option.getD_some] at heq
    subst heq
    obtain rfl : o = o' := Option.some.inj (ho.symm.trans ho')
    exact Option.some.inj (hfd.symm.trans hfd')
  have hperm : ((clientEntries s).map named).Perm s.pool := by
    apply (List.perm_ext_iff_of_nodup hnodup hpool.nodup).mpr
    intro a
    rw [List.mem_map, hpool.mem_iff]
    constructor
    · rintro ⟨fd, hmem, rfl⟩
      obtain ⟨it, a, o, hit, hdata, ho, hreg, -⟩ := (mem_clientEntries h fd).mp hmem
      simp only [named, hit, Option.bind_some, hdata, Option.getD_some]
      exact ⟨o, ho, hreg⟩
    · rintro ⟨o, ho, hreg⟩
      obtain ⟨fd, it, hfd, hit, -, -, hdata⟩ :=
        h.ground.parts.entries.registered a o .client ho hreg
      refine ⟨fd, (mem_clientEntries h fd).mpr ⟨it, a, o, hit, hdata, ho, hreg, hfd⟩, ?_⟩
      simp only [named, hit, Option.bind_some, hdata, Option.getD_some]
  rw [← hperm.length_eq, List.length_map]

/-- The gauge, the size of the pool, its length and the number of registered clients
are one number: the pool lists each of them once. What was added is counted modulo 2^64,
as are the bytes that write() took, and what was removed was taken off the gauge. -/
theorem connections_accounted (h : Reachable s) :
    s.metrics.currentConnections.toNat = s.pool.length ∧
    s.poolSize.toNat = s.pool.length ∧
    s.pool.Nodup ∧
    (∀ a, a ∈ s.pool ↔ ∃ o, s.heap a = some o ∧ o.clientRegistered = true) ∧
    (s.stack = [] → (clientEntries s).length = s.pool.length) ∧
    s.books.added = s.pool.length + s.books.removed ∧
    s.metrics.historicConnections = UInt64.ofNat s.books.added ∧
    (s.books.added < 2 ^ 64 →
      s.metrics.currentConnections ≤ s.metrics.historicConnections) ∧
    s.metrics.bytesTransferred = UInt64.ofNat s.books.written := by
  obtain ⟨d, b, hok⟩ := reachable_ok h
  have hparts := hok.ground.parts
  have hlength := pool_length hparts.pool hparts.entries
  have hword : (UInt64.ofNat s.pool.length).toNat = s.pool.length := by
    apply UInt64.toNat_ofNat_of_lt'
    rw [ITEMS_MAX_SIZE] at hlength
    exact Nat.lt_of_le_of_lt hlength (by decide)
  refine ⟨?_, ?_, hparts.pool.nodup, hparts.pool.mem_iff, ?_, hparts.pool.added,
    hparts.pool.historic, ?_, hparts.pool.bytes⟩
  · rw [hparts.pool.current, hword]
  · rw [hparts.pool.size, hword]
  · intro hidle
    exact clientEntries_length (idle_of_empty hok hidle)
  · intro hadded
    rw [hparts.pool.current, hparts.pool.historic, UInt64.le_iff_toNat_le, hword,
      UInt64.toNat_ofNat_of_lt' hadded, hparts.pool.added]
    exact Nat.le_add_right _ _

theorem connections_accounted_asked : ∃ t, play serverInit (asks 1 5) = .ok t ∧
    t.metrics.currentConnections.toNat = t.pool.length ∧
    t.metrics.currentConnections ≤ t.metrics.historicConnections := by
  have hall := connections_accounted (reachable_play (asks 1 5) rfl)
  exact ⟨_, rfl, hall.1, hall.2.2.2.2.2.2.2.1 (by decide)⟩

end Counted

section Wrapping

/-! Clients come and go until the count of all connections starts anew. -/

/-- Nothing is open that the next client could be in the way of. -/
structure Fresh (s : Server) : Prop where
  heap : s.heap 1 = none
  taken : s.taken 1 = false
  items : s.items 5 = none
  fds : s.fds 5 = none
  pool : s.pool = []
  stack : s.stack = []
  workers : s.workers = []

/-- There is one client, which has not said anything. -/
structure Guest (s : Server) : Prop where
  heap : ∃ k, s.heap 1 = some { socks5Init k 5 with clientRegistered := true }
  taken : s.taken 1 = false
  items : ∃ r, s.items 5 = some ⟨.socksv5, OP_READ, some 1, r⟩
  fds : ∃ sk, s.fds 5 = some sk
  pool : s.pool = [1]
  stack : s.stack = []
  workers : s.workers = []

theorem fresh_accept (h : Fresh s) : ∃ t, step s (.accept 5 true (some 1)) = .ok t ∧ Guest t ∧
    t.books.added = s.books.added + 1 := by
  obtain ⟨heap, taken, items, fds, pool, poolSize, metrics, jobs, workers, stack, accepted,
    books⟩ := s
  obtain ⟨hheap, htaken, hitems, hfds, rfl, rfl, rfl⟩ := h
  simp only at hheap htaken hitems hfds
  simp [step, begins, socksv5PassiveAccept, hheap, htaken, hitems, hfds, sysOpen,
    selectorRegister, ITEMS_MAX_SIZE, Server.set, Server.setItem, socksv5PoolAdd]
  exact
    { heap := ⟨accepted, by simp⟩
      taken := htaken
      items := by simp
      fds := by simp
      pool := rfl
      stack := rfl
      workers := rfl }

theorem guest_hangsUp (h : Guest s) : ∃ t, play s (hangsUp 5) = .ok t ∧ Fresh t ∧
    t.books.added = s.books.added := by
  obtain ⟨heap, taken, items, fds, pool, poolSize, metrics, jobs, workers, stack, accepted,
    books⟩ := s
  obtain ⟨⟨k, hheap⟩, htaken, ⟨r, hitems⟩, ⟨sk, hfds⟩, rfl, rfl, rfl⟩ := h
  simp only at hheap htaken hitems hfds
  simp [play, hangsUp, List.replicate, step, begins, callHandler, dispatched, Server.owned,
    Server.push, Server.set, Server.setItem, Server.locked, hheap, hitems, hfds, OP_READ,
    socksv5Read, socks5Init, runFrame, bind, Except.bind, Except.map, socks5ConnectionClose,
    socks5Cancel, clientClose, clientCloseFd, originClose, originCloseFd, selectorUnregisterFd,
    handleClose, socksv5Close, socksv5PoolRemove, sysClose, ownerRelease, socks5Release,
    socks5Free]
  refine ⟨_, rfl, ?_, rfl⟩
  exact
    { heap := by simp
      taken := htaken
      items := by simp
      fds := by simp
      pool := rfl
      stack := rfl
      workers := rfl }

theorem fresh_reachable (n : ℕ) : ∃ s, Reachable s ∧ Fresh s ∧ s.books.added = n := by
  induction n with
  | zero => exact ⟨serverInit, ⟨[], .nil⟩, ⟨rfl, rfl, rfl, rfl, rfl, rfl, rfl⟩, rfl⟩
  | succ n ih =>
    obtain ⟨s, ⟨es, hrun⟩, hfresh, hadded⟩ := ih
    obtain ⟨t, hstep, hguest, ht⟩ := fresh_accept hfresh
    obtain ⟨u, hplay, hu, hkept⟩ := guest_hangsUp hguest
    refine ⟨u, ⟨_, (Run.snoc hrun hstep).append (play_run hplay)⟩, hu, ?_⟩
    rw [hkept, ht, hadded]

/-- After 2^64 clients the count of all connections is zero, and one of them is there. -/
theorem historic_wraps : ∃ s, Reachable s ∧ s.stack = [] ∧
    s.metrics.historicConnections.toNat ≠ s.books.added ∧
    s.metrics.historicConnections < s.metrics.currentConnections := by
  obtain ⟨s, hs, hfresh, hadded⟩ := fresh_reachable (2 ^ 64 - 1)
  obtain ⟨t, hstep, hguest, ht⟩ := fresh_accept hfresh
  have hreach : Reachable t := reachable_step hs hstep
  obtain ⟨d, b, hok⟩ := reachable_ok hreach
  have hpool := hok.ground.parts.pool
  rw [hadded] at ht
  have hhistoric : t.metrics.historicConnections.toNat = 0 := by
    rw [hpool.historic, ht]
    decide
  have hcurrent : t.metrics.currentConnections.toNat = 1 := by
    rw [hpool.current, hguest.pool]
    decide
  refine ⟨t, hreach, hguest.stack, ?_, ?_⟩
  · rw [hhistoric, ht]
    decide
  · rw [UInt64.lt_iff_toNat_lt, hhistoric, hcurrent]
    exact Nat.one_pos

end Wrapping

end SocksProxy.ServerAccounts
