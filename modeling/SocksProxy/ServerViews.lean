import SocksProxy.Connection
import SocksProxy.Dialing
import SocksProxy.ServerRuns

/-!
Two models of one connection. The server's model keeps what decides who owns what and
takes the bytes as inputs; the connection's model has the bytes but no heap. A view is
what both have of a connection that is open, and here is what the server's own calls
do to it.
-/
namespace SocksProxy.ServerViews

open Kernel Ledgers Runs ServerState ServerSteps ServerRefs ServerParts
open ConnState (Socks5State FdInterest OP_NOOP OP_READ OP_WRITE DnsJob Conn)

/-- What both models have of an open connection; `origin` is the descriptor of the origin
socket with its interest. -/
structure View where
  current : Socks5State
  client : FdInterest
  origin : Option (ℕ × FdInterest)
  atyp : UInt8
  dnsError : ℤ
  found : Bool
  dnsNext : List AddrInfo
  relayStarted : Bool
  dnsPending : Bool
  dnsJob : DnsJob

variable {F : Set ℕ} {fd a n : ℕ} {s t u : Server} {o o' : Socks5} {v v' : View} {c c' : Conn}
  {i : FdInterest} {rest : List Frame} {f : Frame} {k : Answers}

section Relations

/-- The connection on descriptor `fd` is open and looks like `v`. -/
structure Shows (fd : ℕ) (c : Conn) (v : View) : Prop where
  current : c.current.getD .helloRead = v.current
  clientFd : c.clientFd = some fd
  clientItem : c.clientItem = some v.client
  clientRegistered : c.clientRegistered = true
  originFd : c.originFd = v.origin.map Prod.fst
  originItem : c.originItem = v.origin.map Prod.snd
  originRegistered : c.originRegistered = v.origin.isSome
  atyp : c.request.atyp = v.atyp
  dnsError : c.dnsError = v.dnsError
  found : (c.dnsResult ≠ []) = (v.found = true)
  dnsNext : c.dnsNext = v.dnsNext
  closing : c.closing = false
  cancelled : c.cancelled = false
  relayStarted : c.relayStarted = v.relayStarted
  dnsPending : c.dnsPending = v.dnsPending
  dnsJob : c.dnsJob = v.dnsJob

/-- So does the `struct socks5` on the server's heap. -/
structure Same (fd : ℕ) (o : Socks5) (v : View) : Prop where
  current : o.current = v.current
  clientFd : o.clientFd = some fd
  clientRegistered : o.clientRegistered = true
  originFd : o.originFd = v.origin.map Prod.fst
  originRegistered : o.originRegistered = v.origin.isSome
  dnsError : o.dnsError = v.dnsError
  found : o.dnsResult.isSome = v.found
  dnsNext : o.dnsNext = v.dnsNext
  closing : o.closing = false
  cancelled : o.cancelled = false
  released : o.released = false
  relayStarted : o.relayStarted = v.relayStarted
  dnsPending : o.dnsPending = v.dnsPending

/-- A worker has the lookup of the connection. -/
def Resolving (fd a : ℕ) (s : Server) : Prop :=
  ∃ (i : ℕ) (w : DnsWorker), s.workers[i]? = some w ∧ w.socks = a ∧ w.clientFd = fd ∧
    w.state = .resolving

/-- What the server has around the connection at `a`. `F` are the numbers that are free,
and from which its origin sockets come. -/
structure Around (F : Set ℕ) (fd a : ℕ) (s : Server) (v : View) : Prop where
  client : ∃ r, s.items fd = some ⟨.socksv5, v.client, some a, r⟩
  origin : ∀ n i, v.origin = some (n, i) → ∃ r, s.items n = some ⟨.origin, i, some a, r⟩
  clientOpen : ∃ sk, s.fds fd = some sk
  originOpen : ∀ n i, v.origin = some (n, i) → n ∈ F ∧ ∃ sk, s.fds n = some sk
  free : ∀ n ∈ F, (∀ i, v.origin ≠ some (n, i)) → s.fds n = none ∧ s.items n = none
  pool : a ∈ s.pool
  nodup : s.pool.Nodup
  alive : ∀ b ∈ s.pool, ∃ p, s.heap b = some p ∧ p.released = false
  unlocked : s.locked a = false
  worker : v.dnsJob = .resolving → Resolving fd a s

/-- The references are the initial one, and those of the worker and of the jobs. -/
def held (s : Server) (job : DnsJob) : ℕ :=
  s.jobs.length + if job = .resolving then 1 else 0

structure Stands (F : Set ℕ) (fd a : ℕ) (s : Server) (o : Socks5) (v : View) : Prop where
  heap : s.heap a = some o
  references : o.references = 1 + held s v.dnsJob
  same : Same fd o v
  around : Around F fd a s v

/-- What is left of a connection that was closed: the references of its worker or its
job, if there is one. -/
structure Left (F : Set ℕ) (fd a : ℕ) (s : Server) (job : DnsJob) : Prop where
  client : s.fds fd = none ∧ s.items fd = none
  free : ∀ n ∈ F, s.fds n = none ∧ s.items n = none
  pool : a ∉ s.pool
  unlocked : s.locked a = false
  worker : job = .resolving → Resolving fd a s
  heap : (held s job = 0 ∧ s.heap a = none) ∨ ∃ o, s.heap a = some o ∧
    o.references = held s job ∧ 0 < held s job ∧ o.cancelled = true

/-- The calls and the jobs are what they were. -/
def SameWork (s t : Server) : Prop := t.stack = s.stack ∧ t.jobs = s.jobs

end Relations

section Updates

theorem SameWork.trans (h : SameWork s t) (h' : SameWork t u) : SameWork s u :=
  ⟨h'.1.trans h.1, h'.2.trans h.2⟩

theorem Stands.stack (h : Stands F fd a s o v) (fs : List Frame) :
    Stands F fd a { s with stack := fs } o v :=
  ⟨h.heap, h.references, h.same, { h.around with }⟩

theorem Stands.push (h : Stands F fd a s o v) (fs : List Frame) :
    Stands F fd a (s.push fs) o v := h.stack _

/-- Something is noted down in the `struct socks5`. -/
theorem stands_set (hsame : Same fd o' v')
    (href : o'.references = 1 + held s v'.dnsJob) (haround : Around F fd a s v') :
    Stands F fd a (s.set a o') o' v' where
  heap := Function.update_self ..
  references := href
  same := hsame
  around :=
    { haround with
      alive := by
        intro b hb
        by_cases hba : b = a
        · subst hba
          exact ⟨o', Function.update_self .., hsame.released⟩
        · obtain ⟨p, hp, hlive⟩ := haround.alive b hb
          refine ⟨p, ?_, hlive⟩
          show Function.update s.heap a (some o') b = some p
          rw [Function.update_of_ne hba, hp] }

/-- The same, where the view of the sockets and of the lookup is what it was. -/
theorem Stands.note (h : Stands F fd a s o v) (hsame : Same fd o' v')
    (href : o'.references = o.references) (hclient : v'.client = v.client)
    (horigin : v'.origin = v.origin) (hjob : v'.dnsJob = v.dnsJob) :
    Stands F fd a (s.set a o') o' v' := by
  refine stands_set hsame ?_ ?_
  · rw [href, h.references, hjob]
  · have hold := h.around
    exact
      { client := hclient ▸ hold.client
        origin := horigin ▸ hold.origin
        clientOpen := hold.clientOpen
        originOpen := horigin ▸ hold.originOpen
        free := horigin ▸ hold.free
        pool := hold.pool
        nodup := hold.nodup
        alive := hold.alive
        unlocked := hold.unlocked
        worker := hjob ▸ hold.worker }

theorem Around.origin_ne (h : Around F fd a s v) {j : FdInterest}
    (horigin : v.origin = some (n, j)) : n ≠ fd := by
  rintro rfl
  obtain ⟨r, hr⟩ := h.client
  obtain ⟨r', hr'⟩ := h.origin n j horigin
  rw [hr] at hr'
  cases hr'

theorem Stands.interest_client (h : Stands F fd a s o v) (i : FdInterest) :
    Stands F fd a (selectorSetInterest s o.clientFd i) o { v with client := i } := by
  rw [h.same.clientFd]
  obtain ⟨r, hr⟩ := h.around.client
  have hset : ∀ n, n ≠ fd → (selectorSetInterest s (some fd) i).items n = s.items n :=
    fun n hn => Function.update_of_ne hn ..
  exact
    { heap := h.heap
      references := h.references
      same := { h.same with }
      around :=
        { h.around with
          client := by
            refine ⟨r, ?_⟩
            show Function.update s.items fd _ fd = _
            rw [Function.update_self, hr]
            rfl
          origin := by
            intro n j hn
            rw [hset n (h.around.origin_ne hn)]
            exact h.around.origin n j hn
          free := by
            intro n hn hne
            obtain ⟨hfds, hitems⟩ := h.around.free n hn hne
            refine ⟨hfds, ?_⟩
            have hnfd : n ≠ fd := by
              rintro rfl
              rw [hr] at hitems
              cases hitems
            rw [hset n hnfd, hitems] } }

theorem Stands.interest_origin (h : Stands F fd a s o v) (i : FdInterest) :
    Stands F fd a (selectorSetInterest s o.originFd i) o
      { v with origin := v.origin.map fun p => (p.1, i) } := by
  rw [h.same.originFd]
  cases horigin : v.origin with
  | none =>
    refine ⟨h.heap, h.references, { h.same with originFd := ?_, originRegistered := ?_ }, ?_⟩
    · rw [h.same.originFd, horigin]
      rfl
    · rw [h.same.originRegistered, horigin]
      rfl
    · have hold := h.around
      exact
        { hold with
          origin := by simp
          originOpen := by simp
          free := fun n hn _ => hold.free n hn (by simp [horigin]) }
  | some p =>
    obtain ⟨n, j⟩ := p
    have hold := h.around
    have hne := hold.origin_ne horigin
    obtain ⟨r, hr⟩ := hold.origin n j horigin
    obtain ⟨hF, hsk⟩ := hold.originOpen n j horigin
    have hset : ∀ m, m ≠ n → (selectorSetInterest s (some n) i).items m = s.items m :=
      fun m hm => Function.update_of_ne hm ..
    refine ⟨h.heap, h.references, { h.same with originFd := ?_, originRegistered := ?_ }, ?_⟩
    · rw [h.same.originFd, horigin]
      rfl
    · rw [h.same.originRegistered, horigin]
      rfl
    · exact
        { hold with
          client := by
            obtain ⟨r', hr'⟩ := hold.client
            refine ⟨r', ?_⟩
            rw [show (some (n, j)).map Prod.fst = some n from rfl, hset fd hne.symm, hr']
          origin := by
            rintro m j' hm
            obtain ⟨rfl, rfl⟩ : n = m ∧ i = j' := by simpa using hm
            refine ⟨r, ?_⟩
            show Function.update s.items n _ n = _
            rw [Function.update_self, hr]
            rfl
          originOpen := by
            rintro m j' hm
            obtain ⟨rfl, rfl⟩ : n = m ∧ i = j' := by simpa using hm
            exact ⟨hF, hsk⟩
          free := by
            intro m hm hnone
            have hmn : m ≠ n := by
              rintro rfl
              exact hnone i rfl
            obtain ⟨hfds, hitems⟩ := hold.free m hm (by
              intro j' hj'
              rw [horigin] at hj'
              exact hmn (congrArg Prod.fst (Option.some.inj hj')).symm)
            refine ⟨hfds, ?_⟩
            rw [show (some (n, j)).map Prod.fst = some n from rfl, hset m hmn, hitems] }

theorem Shows.interest_client (h : Shows fd c v) (i : FdInterest) :
    Shows fd (ConnState.selectorSetInterest c .client i) { v with client := i } :=
  { h with
    clientItem := by
      show c.clientItem.map _ = some i
      rw [h.clientItem]
      rfl }

theorem Shows.interest_origin (h : Shows fd c v) (i : FdInterest) :
    Shows fd (ConnState.selectorSetInterest c .origin i)
      { v with origin := v.origin.map fun p => (p.1, i) } :=
  { h with
    originFd := by
      show c.originFd = _
      rw [h.originFd, Option.map_map]
      rfl
    originItem := by
      show c.originItem.map _ = _
      rw [h.originItem, Option.map_map, Option.map_map]
      rfl
    originRegistered := by
      show c.originRegistered = _
      rw [h.originRegistered, Option.isSome_map] }

theorem Shows.goes (h : Shows fd c v) (st : Socks5State) :
    Shows fd { c with current := some st } { v with current := st } := { h with current := rfl }

/-- The state changes and the client waits for something else. -/
theorem Stands.goes (h : Stands F fd a s o v) (st : Socks5State) (i : FdInterest) :
    Stands F fd a (selectorSetInterest (s.set a { o with current := st }) o.clientFd i)
      { o with current := st } { v with current := st, client := i } := by
  have hsame : Same fd { o with current := st } { v with current := st } :=
    { h.same with current := rfl }
  exact (h.note hsame rfl rfl rfl rfl).interest_client i

theorem sameWork_interest (s : Server) (n : Option ℕ) (i : FdInterest) :
    SameWork s (selectorSetInterest s n i) := by
  cases n <;> exact ⟨rfl, rfl⟩

end Updates

section Dialing

/-- What comes of one register_origin_connect: its status, and the origin socket. -/
def reached (x : Attempt) : Status × Option (ℕ × FdInterest) :=
  match x.socket with
  | .error e => (.failed e, none)
  | .ok n =>
    match x.setNio with
    | some e => (.failed e, none)
    | none =>
      match x.connect with
      | .failed e => (.failed e, none)
      | .ok => if x.register then (.ok, some (n, OP_NOOP)) else (.failed .ECONNREFUSED, none)
      | .inProgress =>
        if x.register then (.inProgress, some (n, OP_WRITE)) else (.failed .ECONNREFUSED, none)

/-- The same answers for the server's model, which finds out by itself whether the
registration succeeds. -/
def dial (x : Attempt) : Dial := { socket := x.socket, setNio := x.setNio, connect := x.connect }

/-- socket() returns a free number, and selector_register refuses it when it is too large. -/
def Real (F : Set ℕ) (x : Attempt) : Prop :=
  ∀ n, x.socket = .ok n → n ∈ F ∧ (x.register = true ↔ n < ITEMS_MAX_SIZE)

variable {x : Attempt}

theorem Shows.dial (h : Shows fd c v) (hnone : v.origin = none) (addr : Request.SockAddr) :
    (Connect.registerOriginConnect x addr c).1 = (reached x).1 ∧
      Shows fd (Connect.registerOriginConnect x addr c).2 { v with origin := (reached x).2 } := by
  have hfd : c.originFd = none := by rw [h.originFd, hnone]; rfl
  have hsame : ∀ call, Shows fd (c.log call) { v with origin := none } := fun call =>
    { h with
      originFd := hfd
      originItem := by
        show c.originItem = none
        rw [h.originItem, hnone]
        rfl
      originRegistered := by
        show c.originRegistered = false
        rw [h.originRegistered, hnone]
        rfl }
  unfold Connect.registerOriginConnect reached
  cases x.socket with
  | error e => exact ⟨rfl, hsame _⟩
  | ok n =>
    cases x.setNio with
    | some e => exact ⟨rfl, { hsame (.registerOriginConnect addr) with }⟩
    | none =>
      cases x.connect with
      | failed e => exact ⟨rfl, { hsame (.registerOriginConnect addr) with }⟩
      | ok =>
        cases x.register with
        | true =>
          exact ⟨rfl, { h with originFd := rfl, originItem := rfl, originRegistered := rfl }⟩
        | false => exact ⟨rfl, { hsame (.registerOriginConnect addr) with originFd := rfl }⟩
      | inProgress =>
        cases x.register with
        | true =>
          exact ⟨rfl, { h with originFd := rfl, originItem := rfl, originRegistered := rfl }⟩
        | false => exact ⟨rfl, { hsame (.registerOriginConnect addr) with originFd := rfl }⟩

/-- The kernel has opened a socket of the connection and closed it again. -/
theorem Stands.reclosed (h : Stands F fd a s o v) (hn : s.fds n = none) (owner : Option ℕ)
    (side : Side) : ∃ t, sysClose (sysOpen s n owner side) n = .ok t ∧ SameWork s t ∧
      Stands F fd a t o v := by
  refine ⟨_, sysClose_eq (Function.update_self ..), ⟨rfl, rfl⟩, h.heap, h.references, h.same, ?_⟩
  have hfds : ∀ sk, Function.update (Function.update s.fds n (some sk)) n none = s.fds := by
    intro sk
    rw [Function.update_idem, ← hn, Function.update_eq_self]
  exact
    { h.around with
      clientOpen := by
        obtain ⟨sk, hsk⟩ := h.around.clientOpen
        exact ⟨sk, (congrFun (hfds _) fd).trans hsk⟩
      originOpen := by
        intro m j hm
        obtain ⟨hF, sk, hsk⟩ := h.around.originOpen m j hm
        exact ⟨hF, sk, (congrFun (hfds _) m).trans hsk⟩
      free := by
        intro m hm hne
        obtain ⟨hm', hitems⟩ := h.around.free m hm hne
        exact ⟨(congrFun (hfds _) m).trans hm', hitems⟩ }

/-- The origin socket `n` is open and registered. -/
theorem Stands.registered (h : Stands F fd a s o v) (hnone : v.origin = none) (hF : n ∈ F)
    (hlt : n < ITEMS_MAX_SIZE) (i : FdInterest) : ∃ t,
      selectorRegister ((sysOpen s n (some o.serial) .origin).set a { o with originFd := some n }) n
        .origin i (some a) (some o.serial) = some t ∧ SameWork s t ∧
      Stands F fd a (t.set a { o with originFd := some n, originRegistered := true })
        { o with originFd := some n, originRegistered := true }
        { v with origin := some (n, i) } := by
  have hold := h.around
  obtain ⟨hfds, hitems⟩ := hold.free n hF (by simp [hnone])
  have hne : n ≠ fd := by
    rintro rfl
    obtain ⟨sk, hsk⟩ := hold.clientOpen
    rw [hsk] at hfds
    cases hfds
  have hfail : ¬ (ITEMS_MAX_SIZE ≤ n ∨ (s.items n).isSome) := by
    rw [hitems]
    simp [hlt]
  refine ⟨_, if_neg hfail, ⟨rfl, rfl⟩, Function.update_self .., h.references, ?_, ?_⟩
  · exact { h.same with originFd := rfl, originRegistered := rfl }
  · exact
      { client := by
          obtain ⟨r, hr⟩ := hold.client
          exact ⟨r, (Function.update_of_ne hne.symm ..).trans hr⟩
        origin := by
          rintro m j hm
          obtain ⟨rfl, rfl⟩ : n = m ∧ i = j := by simpa using hm
          exact ⟨_, Function.update_self ..⟩
        clientOpen := by
          obtain ⟨sk, hsk⟩ := hold.clientOpen
          exact ⟨sk, (Function.update_of_ne hne.symm ..).trans hsk⟩
        originOpen := by
          rintro m j hm
          obtain ⟨rfl, rfl⟩ : n = m ∧ i = j := by simpa using hm
          exact ⟨hF, _, Function.update_self ..⟩
        free := by
          intro m hm hnot
          have hmn : m ≠ n := by
            rintro rfl
            exact hnot i rfl
          obtain ⟨hm', hi'⟩ := hold.free m hm (by simp [hnone])
          exact ⟨(Function.update_of_ne hmn ..).trans hm', (Function.update_of_ne hmn ..).trans hi'⟩
        pool := hold.pool
        nodup := hold.nodup
        alive := by
          intro b hb
          by_cases hba : b = a
          · subst hba
            exact ⟨_, Function.update_self .., h.same.released⟩
          · obtain ⟨p, hp, hlive⟩ := hold.alive b hb
            refine ⟨p, ?_, hlive⟩
            show Function.update (Function.update s.heap a _) a _ b = some p
            rw [Function.update_of_ne hba, Function.update_of_ne hba, hp]
        unlocked := hold.unlocked
        worker := hold.worker }

/-- selector_register has refused the number. -/
theorem Stands.unregistered (h : Stands F fd a s o v) (hnone : v.origin = none) :
    Stands F fd a (s.set a { o with originFd := none }) { o with originFd := none } v := by
  refine h.note { h.same with originFd := ?_ } rfl rfl rfl rfl
  rw [hnone]
  rfl

theorem Stands.dial (h : Stands F fd a s o v) (hnone : v.origin = none) (hreal : Real F x) :
    ∃ t o', registerOriginConnect s a (dial x) = .ok ((reached x).1, t) ∧ SameWork s t ∧
      Stands F fd a t o' { v with origin := (reached x).2 } ∧ o'.atyp = o.atyp := by
  have hsame : Stands F fd a s o { v with origin := none } := by
    rwa [show ({ v with origin := none } : View) = v by cases v; cases hnone; rfl]
  unfold registerOriginConnect reached ServerViews.dial
  rw [h.heap]
  dsimp only
  cases hsocket : x.socket with
  | error e => exact ⟨s, o, rfl, ⟨rfl, rfl⟩, hsame, rfl⟩
  | ok n =>
    obtain ⟨hF, hregister⟩ := hreal n hsocket
    obtain ⟨hfds, -⟩ := h.around.free n hF (by simp [hnone])
    have hopen : ¬ (s.fds n).isSome = true := by simp [hfds]
    obtain ⟨t, ht, hwork, hstands⟩ := hsame.reclosed hfds (some o.serial) .origin
    dsimp only
    rw [if_neg hopen]
    cases x.setNio with
    | some e => exact ⟨t, o, by rw [ht]; rfl, hwork, hstands, rfl⟩
    | none =>
      cases x.connect with
      | failed e => exact ⟨t, o, by rw [ht]; rfl, hwork, hstands, rfl⟩
      | ok =>
        dsimp only
        rw [if_pos rfl]
        by_cases hlt : n < ITEMS_MAX_SIZE
        · obtain ⟨t, ht, hwork, hstands⟩ := h.registered hnone hF hlt OP_NOOP
          rw [ht, hregister.mpr hlt]
          exact ⟨_, _, rfl, hwork, hstands, rfl⟩
        · have hfull : selectorRegister ((sysOpen s n (some o.serial) .origin).set a
              { o with originFd := some n }) n .origin OP_NOOP (some a) (some o.serial) = none :=
            if_pos (Or.inl (Nat.le_of_not_lt hlt))
          rw [hfull, ht, Bool.eq_false_of_not_eq_true (mt hregister.mp hlt)]
          exact ⟨_, _, rfl, hwork, hstands.unregistered rfl, rfl⟩
      | inProgress =>
        dsimp only
        rw [if_neg (by simp)]
        by_cases hlt : n < ITEMS_MAX_SIZE
        · obtain ⟨t, ht, hwork, hstands⟩ := h.registered hnone hF hlt OP_WRITE
          rw [ht, hregister.mpr hlt]
          exact ⟨_, _, rfl, hwork, hstands, rfl⟩
        · have hfull : selectorRegister ((sysOpen s n (some o.serial) .origin).set a
              { o with originFd := some n }) n .origin OP_WRITE (some a) (some o.serial) = none :=
            if_pos (Or.inl (Nat.le_of_not_lt hlt))
          rw [hfull, ht, Bool.eq_false_of_not_eq_true (mt hregister.mp hlt)]
          exact ⟨_, _, rfl, hwork, hstands.unregistered rfl, rfl⟩

end Dialing

end SocksProxy.ServerViews
