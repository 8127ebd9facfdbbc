import SocksProxy.ServerWork

/-!
Connections do not get in each other's way. Every step of the server is taken for
one connection, or for none; it changes the state of that one, the descriptors and
entries that are its own, and opens new ones. All the others stay as they were.
-/
namespace SocksProxy.ServerIsolation

open Kernel Request Ledgers ServerState ServerSteps ServerRefs ServerSockets ServerEntries
open ServerPool ServerParts ServerStages ServerClosing ServerHandlers ServerLoops ServerRuns
open ServerOwners ServerWork Runs
open ConnState (Socks5State FdInterest OP_NOOP OP_READ OP_WRITE)

/-- What a step may use: descriptors, the calls that it may begin, whether it may accept a
client, and the descriptors that it may open for no connection. -/
structure Reach where
  fds : ℕ → Prop
  calls : Frame → Prop
  accepts : Prop
  opens : ℕ → Prop

variable {s t u : Server} {b : Bottom} {d : Doing} {a c fd i : ℕ} {o : Socks5} {k : Answers}
variable {R : Reach} {sub : Option ℕ} {r : Except Halt Server}
variable {w : DnsWorker} {f : Frame} {fs : List Frame} {e : Event} {es : List Event} {side : Side}

section Touching

/-- A frame that every handler may push: it names no descriptor but those of its
connection, and is none of selector_destroy. -/
def modest : Frame → Bool
  | .clear _ _ | .close _ | .destroy _ | .destroyJobs | .ended => false
  | _ => true

/-- What is at `fd` in `t` is a connection's, or was there in `s`. -/
structure NoneNew (fd : ℕ) (s t : Server) : Prop where
  socket : ∀ sk, t.fds fd = some sk → sk.owner = none → s.fds fd = some sk
  entry : ∀ it, t.items fd = some it → it.handler = .other →
    ∃ it', s.items fd = some it' ∧ it'.handler = .other

/-- Between `s` and `t` something was done for the connection `sub`, within `R`. -/
structure Touches (sub : Option ℕ) (R : Reach) (s t : Server) : Prop where
  heap : ∀ c, sub ≠ some c → t.heap c = s.heap c
  items : ∀ fd, ¬ R.fds fd → t.items fd = s.items fd
  fds : ∀ fd, ¬ R.fds fd → t.fds fd = s.fds fd
  pool : ∀ c, sub ≠ some c → (c ∈ t.pool ↔ c ∈ s.pool)
  jobs : ∀ c, sub ≠ some c →
    (t.jobs.filter fun j => j.data = c) = s.jobs.filter fun j => j.data = c
  workers : ∀ c, sub ≠ some c →
    (t.workers.filter fun w => w.socks = c) = s.workers.filter fun w => w.socks = c
  stack : ∀ f ∈ t.stack, f ∈ s.stack ∨ R.calls f
  accepted : R.accepts ∨ t.accepted = s.accepted
  unowned : ∀ fd, ¬ R.opens fd → NoneNew fd s t

/-- The descriptors of the connection may be used, and those that are not open; their
entries may be cleared. -/
structure Owns (sub : Option ℕ) (R : Reach) (s : Server) : Prop where
  own : ∀ c o side fd, sub = some c → s.heap c = some o → sideFd side o = some fd → R.fds fd
  free : ∀ fd, s.fds fd = none → R.fds fd
  clear : ∀ fd data, R.fds fd → R.calls (.clear fd data)
  modest : ∀ f, modest f = true → R.calls f

/-- `r` does this and keeps to it. -/
def Touching (sub : Option ℕ) (R : Reach) (s : Server)
    (r : Except Halt Server) : Prop :=
  Owns sub R s → ∀ t, r = .ok t → Touches sub R s t ∧ Owns sub R t

theorem noneNew_same (hitems : t.items = s.items) (hfds : t.fds = s.fds) : NoneNew fd s t where
  socket := by
    intro sk hsk _
    rwa [hfds] at hsk
  entry := by
    intro it hit hother
    rw [hitems] at hit
    exact ⟨it, hit, hother⟩

theorem NoneNew.trans (h : NoneNew fd s t) (h' : NoneNew fd t u) : NoneNew fd s u where
  socket := fun sk hsk howner => h.socket sk (h'.socket sk hsk howner) howner
  entry := by
    intro it hit hother
    obtain ⟨it', hit', hother'⟩ := h'.entry it hit hother
    exact h.entry it' hit' hother'

theorem Touches.refl (s : Server) : Touches sub R s s :=
  ⟨fun _ _ => rfl, fun _ _ => rfl, fun _ _ => rfl, fun _ _ => Iff.rfl, fun _ _ => rfl,
    fun _ _ => rfl, fun _ => Or.inl, Or.inr rfl, fun _ _ => noneNew_same rfl rfl⟩

theorem Touches.trans (h : Touches sub R s t) (h' : Touches sub R t u) :
    Touches sub R s u where
  heap := fun c hc => (h'.heap c hc).trans (h.heap c hc)
  items := fun fd hfd => (h'.items fd hfd).trans (h.items fd hfd)
  fds := fun fd hfd => (h'.fds fd hfd).trans (h.fds fd hfd)
  pool := fun c hc => (h'.pool c hc).trans (h.pool c hc)
  jobs := fun c hc => (h'.jobs c hc).trans (h.jobs c hc)
  workers := fun c hc => (h'.workers c hc).trans (h.workers c hc)
  stack := fun f hf => (h'.stack f hf).elim (h.stack f) Or.inr
  accepted := by
    rcases h.accepted with haccepts | heq
    · exact Or.inl haccepts
    · exact h'.accepted.imp_right fun heq' => heq'.trans heq
  unowned := fun fd hfd => (h.unowned fd hfd).trans (h'.unowned fd hfd)

theorem touching_error {h : Halt} : Touching sub R s (.error h) := by
  intro _ _ heq
  cases heq

theorem touching_refl : Touching sub R s (.ok s) := by
  intro howns t ht
  obtain rfl := Except.ok.inj ht
  exact ⟨Touches.refl s, howns⟩

/-- A part of what is done, and what is done after it. -/
theorem Touching.after (h' : Touching sub R t r) (h : Touching sub R s (.ok t)) :
    Touching sub R s r := by
  intro howns u hu
  obtain ⟨htouch, howns'⟩ := h howns t rfl
  obtain ⟨htouch', howns''⟩ := h' howns' u hu
  exact ⟨htouch.trans htouch', howns''⟩

theorem Touching.bind {α : Type} {r : Except Halt α} {g : α → Server}
    {f : α → Except Halt Server} (h : Touching sub R s (r.map g))
    (hf : ∀ x, Touching sub R (g x) (f x)) : Touching sub R s (r.bind f) := by
  cases r with
  | error e => exact touching_error
  | ok x => exact (hf x).after h

theorem Touching.map {g : Server → Server} (h : Touching sub R s r)
    (hg : ∀ t, Touching sub R t (.ok (g t))) : Touching sub R s (r.map g) := by
  cases r with
  | error e => exact touching_error
  | ok t => exact (hg t).after h

theorem touching_owned {f : Socks5 → Except Halt Server}
    (h : ∀ o, s.heap a = some o → Touching sub R s (f o)) : Touching sub R s (s.owned a f) := by
  unfold Server.owned
  split
  next o ho =>
    split
    next => exact touching_error
    next => exact h o ho
  next => exact touching_error

/-- Neither connections nor descriptors are touched. -/
theorem touching_frames (hheap : t.heap = s.heap) (hitems : t.items = s.items)
    (hfds : t.fds = s.fds) (hpool : t.pool = s.pool) (hjobs : t.jobs = s.jobs)
    (hworkers : t.workers = s.workers)
    (hstack : Owns sub R s → ∀ f ∈ t.stack, f ∈ s.stack ∨ R.calls f)
    (haccepted : t.accepted = s.accepted) : Touching sub R s (.ok t) := by
  intro howns u hu
  obtain rfl := Except.ok.inj hu
  refine ⟨⟨fun c _ => by rw [hheap], fun fd _ => by rw [hitems], fun fd _ => by rw [hfds],
    fun c _ => by rw [hpool], fun c _ => by rw [hjobs], fun c _ => by rw [hworkers],
    hstack howns, Or.inr haccepted, fun _ _ => noneNew_same hitems hfds⟩, ?_, ?_, howns.clear,
    howns.modest⟩
  · intro c o side fd hc ho hfd
    rw [hheap] at ho
    exact howns.own c o side fd hc ho hfd
  · intro fd hfd
    rw [hfds] at hfd
    exact howns.free fd hfd

/-- The stack stays, too. -/
theorem touching_same (hheap : t.heap = s.heap) (hitems : t.items = s.items)
    (hfds : t.fds = s.fds) (hpool : t.pool = s.pool) (hjobs : t.jobs = s.jobs)
    (hworkers : t.workers = s.workers) (hstack : t.stack = s.stack)
    (haccepted : t.accepted = s.accepted) : Touching sub R s (.ok t) := by
  refine touching_frames hheap hitems hfds hpool hjobs hworkers (fun _ f hf => Or.inl ?_) haccepted
  rwa [hstack] at hf

/-- Calls that may be begun are put on the stack. -/
theorem Touching.pushes (h : Touching sub R s (.ok t)) {fs : List Frame}
    (hfs : Owns sub R t → ∀ f ∈ fs, R.calls f) : Touching sub R s (.ok (t.push fs)) := by
  refine Touching.after (t := t) (touching_frames rfl rfl rfl rfl rfl rfl ?_ rfl) h
  intro howns f hf
  rcases List.mem_append.mp hf with hf | hf
  · exact Or.inr (hfs howns f hf)
  · exact Or.inl hf

theorem Touching.push (h : Touching sub R s (.ok t)) {fs : List Frame}
    (hfs : ∀ f ∈ fs, modest f = true) : Touching sub R s (.ok (t.push fs)) :=
  h.pushes fun howns f hf => howns.modest f (hfs f hf)

/-- The connection itself changes; its descriptors stay among those of `F`. -/
theorem touching_set {o' : Socks5}
    (hfds : Owns (some a) R s → ∀ side fd, sideFd side o' = some fd → R.fds fd) :
    Touching (some a) R s (.ok (s.set a o')) := by
  intro howns u hu
  obtain rfl := Except.ok.inj hu
  refine ⟨⟨?_, fun _ _ => rfl, fun _ _ => rfl, fun _ _ => Iff.rfl, fun _ _ => rfl,
    fun _ _ => rfl, fun _ => Or.inl, Or.inr rfl, fun _ _ => noneNew_same rfl rfl⟩, ?_,
    howns.free, howns.clear, howns.modest⟩
  · intro c hc
    have hca : c ≠ a := fun heq => hc (by rw [heq])
    simp [Server.set, Function.update_of_ne hca]
  · intro c o side fd hc ho hfd
    obtain rfl := Option.some.inj hc
    simp only [Server.set, Function.update_self, Option.some.injEq] at ho
    subst ho
    exact hfds howns side fd hfd

/-- Its descriptors do not change. -/
theorem touching_keep {o' : Socks5} (ho : s.heap a = some o) (hclient : o'.clientFd = o.clientFd)
    (horigin : o'.originFd = o.originFd) : Touching (some a) R s (.ok (s.set a o')) := by
  apply touching_set
  intro howns side fd hfd
  apply howns.own a o side fd rfl ho
  cases side with
  | client => exact hclient.symm.trans hfd
  | origin => exact horigin.symm.trans hfd

/-- An entry changes. -/
theorem touching_item (hF : Owns sub R s → R.fds fd) {it : Option Item}
    (hkeeps : ∀ i, it = some i → i.handler = .other → R.opens fd ∨
      ∃ i', s.items fd = some i' ∧ i'.handler = .other) :
    Touching sub R s (.ok (s.setItem fd it)) := by
  intro howns u hu
  obtain rfl := Except.ok.inj hu
  refine ⟨⟨fun _ _ => rfl, ?_, fun _ _ => rfl, fun _ _ => Iff.rfl, fun _ _ => rfl,
    fun _ _ => rfl, fun _ => Or.inl, Or.inr rfl, fun e he => ⟨fun _ hsk _ => hsk, ?_⟩⟩,
    howns.own, howns.free, howns.clear, howns.modest⟩
  · intro e he
    have hne : e ≠ fd := by
      rintro rfl
      exact he (hF howns)
    simp [Server.setItem, Function.update_of_ne hne]
  · intro i hi hother
    rcases Ledger.update_eq_some hi with ⟨rfl, hnew⟩ | ⟨-, hi⟩
    · exact (hkeeps i hnew hother).resolve_left he
    · exact ⟨i, hi, hother⟩

end Touching

section Close

theorem sysClose_touching (hF : Owns sub R s → R.fds fd) : Touching sub R s (sysClose s fd) := by
  unfold sysClose
  split
  next => exact touching_error
  next =>
    intro howns t ht
    obtain rfl := Except.ok.inj ht
    have hmine := hF howns
    have hne : ∀ e, ¬ R.fds e → e ≠ fd := by
      rintro e he rfl
      exact he hmine
    refine ⟨⟨fun _ _ => rfl, fun _ _ => rfl, ?_, fun _ _ => Iff.rfl, fun _ _ => rfl,
      fun _ _ => rfl, fun _ => Or.inl, Or.inr rfl, fun _ _ => ⟨?_, fun it hit ho => ⟨it, hit, ho⟩⟩⟩,
      howns.own, ?_, howns.clear, howns.modest⟩
    · intro e he
      simp [Function.update_of_ne (hne e he)]
    · intro sk hsk _
      rcases Ledger.update_eq_some hsk with ⟨-, hsk⟩ | ⟨-, hsk⟩
      · cases hsk
      · exact hsk
    · intro e he
      by_contra hnot
      simp only [Function.update_of_ne (hne e hnot)] at he
      exact hnot (howns.free e he)

theorem socks5Release_touching : Touching (some a) R s (socks5Release s a) := by
  unfold socks5Release
  split
  next => exact touching_error
  next o ho =>
    split
    next => exact touching_error
    next =>
      intro howns t ht
      obtain rfl := Except.ok.inj ht
      refine ⟨⟨?_, fun _ _ => rfl, fun _ _ => rfl, fun _ _ => Iff.rfl, fun _ _ => rfl,
        fun _ _ => rfl, fun _ => Or.inl, Or.inr rfl, fun _ _ => noneNew_same rfl rfl⟩, ?_,
    howns.free, howns.clear, howns.modest⟩
      · intro c hc
        have hca : c ≠ a := fun heq => hc (by rw [heq])
        simp [socks5Free, Function.update_of_ne hca]
      · intro c p side fd hc hp
        obtain rfl := Option.some.inj hc
        simp [socks5Free] at hp
    next => exact touching_keep ho rfl rfl

theorem ownerRelease_touching : Touching (some a) R s (ownerRelease s a) := by
  refine touching_owned fun o ho => ?_
  let t : Server := { s.set a { o with released := true } with
    books := { s.books with owners := s.books.owners.settle o.serial } }
  have hbooks : Touching (some a) R (s.set a { o with released := true }) (.ok t) :=
    touching_same rfl rfl rfl rfl rfl rfl rfl rfl
  have hset : Touching (some a) R s (.ok (s.set a { o with released := true })) :=
    touching_keep ho rfl rfl
  exact (socks5Release_touching.after hbooks).after hset

theorem socks5Cancel_touching : Touching (some a) R s (socks5Cancel s a) := by
  unfold socks5Cancel
  split
  next => exact touching_error
  next => exact touching_owned fun o ho => touching_keep ho rfl rfl

theorem socksv5PoolRemove_touching : Touching (some a) R s (socksv5PoolRemove s a) := by
  unfold socksv5PoolRemove
  split
  next =>
    split
    next =>
      intro howns t ht
      obtain rfl := Except.ok.inj ht
      refine ⟨⟨fun _ _ => rfl, fun _ _ => rfl, fun _ _ => rfl, ?_, fun _ _ => rfl,
        fun _ _ => rfl, fun _ => Or.inl, Or.inr rfl, fun _ _ => noneNew_same rfl rfl⟩, howns.own,
        howns.free, howns.clear, howns.modest⟩
      intro c hc
      have hca : c ≠ a := fun heq => hc (by rw [heq])
      exact List.mem_erase_of_ne hca
    next => exact touching_refl
  next => exact touching_error

/-- handle_close of an entry of the connection, or of one that is none's. -/
theorem handleClose_touching {it : Item}
    (hdata : it.handler ≠ .other → it.data = sub) : Touching sub R s (handleClose s fd it) := by
  unfold handleClose
  split
  next a hhandler hit =>
    obtain rfl : some a = sub := hit.symm.trans (hdata (by simp [hhandler]))
    refine touching_owned fun o ho =>
      socksv5PoolRemove_touching.after (Touching.push ?_ (by simp [modest]))
    split
    next => exact touching_keep ho rfl rfl
    next => exact touching_keep ho rfl rfl
  next a hhandler hit =>
    obtain rfl : some a = sub := hit.symm.trans (hdata (by simp [hhandler]))
    refine touching_owned fun o ho => ?_
    split
    next => exact touching_keep ho rfl rfl
    next => exact touching_keep ho rfl rfl
  next => cases it.data <;> exact touching_same rfl rfl rfl rfl rfl rfl rfl rfl
  next => exact touching_error

theorem selectorUnregisterFd_touching
    (hdata : ∀ it, s.items fd = some it → it.handler ≠ .other → it.data = sub)
    (hclear : Owns sub R s → ∀ data, R.calls (.clear fd data)) :
    Touching sub R s (selectorUnregisterFd s fd) := by
  unfold selectorUnregisterFd
  split
  next => exact touching_refl
  next it hit =>
    refine (handleClose_touching (hdata it hit)).after
      (touching_frames rfl rfl rfl rfl rfl rfl ?_ rfl)
    intro howns f hf
    rcases List.mem_cons.mp hf with rfl | hf
    · exact Or.inr (hclear howns it.data)
    · exact Or.inl hf

theorem socks5ConnectionClose_touching : Touching (some a) R s (socks5ConnectionClose s a) := by
  refine touching_owned fun o ho => ?_
  split
  next => exact touching_refl
  next =>
    have hset : Touching (some a) R s (.ok (s.set a { o with closing := true })) :=
      touching_keep ho rfl rfl
    exact hset.push (by simp [modest])

/-- What the connection believes to have registered is its own. -/
def Entered (s : Server) (a : ℕ) : Prop :=
  ∀ o side fd it, s.heap a = some o → sideRegistered side o = true → sideFd side o = some fd →
    s.items fd = some it → it.data = some a

theorem clientClose_touching (h : Entered s a) : Touching (some a) R s (clientClose s a) := by
  refine touching_owned fun o ho => ?_
  split
  next => exact touching_refl
  next fd hfd =>
    split
    next hreg =>
      have hset : Touching (some a) R s (.ok (s.set a { o with clientRegistered := false })) :=
        touching_keep ho rfl rfl
      intro howns
      have hclear := fun data => howns.clear fd data (howns.own a o .client fd rfl ho hfd)
      refine Touching.after (selectorUnregisterFd_touching ?_ fun _ => hclear)
        (hset.push (by simp [modest])) howns
      exact fun it hit _ => h o .client fd it ho hreg hfd hit
    next => exact touching_refl.push (by simp [modest])

/-- A descriptor of the connection is closed, and is no longer in it. -/
theorem close_set_touching {o' : Socks5} (hF : Owns (some a) R s → R.fds fd)
    (hfds : Owns (some a) R s → ∀ side fd, sideFd side o' = some fd → R.fds fd) :
    Touching (some a) R s ((sysClose s fd).map fun s => s.set a o') := by
  intro howns
  have hclose : Touching (some a) R s (sysClose s fd) := sysClose_touching hF
  exact (hclose.map fun t => touching_set fun _ => hfds howns) howns

theorem clientCloseFd_touching (h : ∀ o, s.heap a = some o → o.clientFd = some fd) :
    Touching (some a) R s (clientCloseFd s a fd) := by
  refine touching_owned fun o ho => close_set_touching ?_ ?_
  · exact fun howns => howns.own a o .client fd rfl ho (h o ho)
  · intro howns side e he
    rw [if_pos (h o ho)] at he
    cases side with
    | client => cases he
    | origin => exact howns.own a o .origin e rfl ho he

theorem originClose_touching (h : Entered s a) : Touching (some a) R s (originClose s a) := by
  refine touching_owned fun o ho => ?_
  split
  next fd hreg hfd =>
    have hset : Touching (some a) R s (.ok (s.set a { o with originRegistered := false })) :=
      touching_keep ho rfl rfl
    intro howns
    have hclear := fun data => howns.clear fd data (howns.own a o .origin fd rfl ho hfd)
    refine Touching.after (selectorUnregisterFd_touching ?_ fun _ => hclear)
      (hset.push (by simp [modest])) howns
    exact fun it hit _ => h o .origin fd it ho hreg hfd hit
  next => exact touching_refl.push (by simp [modest])

theorem originCloseFd_touching : Touching (some a) R s (originCloseFd s a) := by
  refine touching_owned fun o ho => ?_
  split
  next => exact touching_refl
  next fd hfd =>
    refine close_set_touching (fun howns => howns.own a o .origin fd rfl ho hfd) ?_
    intro howns side e he
    cases side with
    | client => exact howns.own a o .client e rfl ho he
    | origin => cases he

end Close

section Connect

theorem sysOpen_touching {owner : Option ℕ} {side : Side} (hF : R.fds fd)
    (howner : owner = none → R.opens fd) :
    Touching sub R s (.ok (sysOpen s fd owner side)) := by
  intro howns u hu
  obtain rfl := Except.ok.inj hu
  have hne : ∀ e, ¬ R.fds e → e ≠ fd := by
    rintro e he rfl
    exact he hF
  refine ⟨⟨fun _ _ => rfl, fun _ _ => rfl, ?_, fun _ _ => Iff.rfl, fun _ _ => rfl,
    fun _ _ => rfl, fun _ => Or.inl, Or.inr rfl, fun e he => ⟨?_, fun it hit ho => ⟨it, hit, ho⟩⟩⟩,
    howns.own, ?_, howns.clear, howns.modest⟩
  · intro e he
    simp [sysOpen, Function.update_of_ne (hne e he)]
  · intro sk hsk hnone
    rcases Ledger.update_eq_some hsk with ⟨rfl, hnew⟩ | ⟨-, hsk⟩
    · rw [← Option.some.inj hnew] at hnone
      exact absurd (howner hnone) he
    · exact hsk
  · intro e he
    by_contra hnot
    simp only [sysOpen, Function.update_of_ne (hne e hnot)] at he
    exact hnot (howns.free e he)

theorem selectorRegister_touching {handler : Handler} {op : FdInterest} {data owner : Option ℕ}
    (hF : R.fds fd) (hopens : handler = .other → R.opens fd)
    (h : selectorRegister s fd handler op data owner = some t) : Touching sub R s (.ok t) := by
  unfold selectorRegister at h
  split at h
  next => cases h
  next =>
    rw [← Option.some.inj h]
    let it : Item := ⟨handler, op, data, ⟨owner, s.books.registrations.issued.length⟩⟩
    have hitem : Touching sub R s (.ok (s.setItem fd (some it))) := by
      refine touching_item (fun _ => hF) ?_
      intro i hi hother
      rw [← Option.some.inj hi] at hother
      exact Or.inl (hopens hother)
    exact Touching.after (t := s.setItem fd (some it))
      (touching_same rfl rfl rfl rfl rfl rfl rfl rfl) hitem

theorem selectorSetInterest_touching {op : FdInterest} {e : Option ℕ}
    (hF : Owns sub R s → ∀ fd, e = some fd → R.fds fd) :
    Touching sub R s (.ok (selectorSetInterest s e op)) := by
  cases e with
  | none => exact touching_refl
  | some fd =>
    refine touching_item (fun howns => hF howns fd rfl) ?_
    intro i hi hother
    obtain ⟨it, hit, rfl⟩ := Option.map_eq_some_iff.mp hi
    exact Or.inr ⟨it, hit, hother⟩

/-- A state is entered, and an interest set for the client. -/
theorem enters_touching (ho : s.heap a = some o) (st : Socks5State) (op : FdInterest) :
    Touching (some a) R s
      (.ok (selectorSetInterest (s.set a { o with current := st }) o.clientFd op)) := by
  intro howns
  have hset : Touching (some a) R s (.ok (s.set a { o with current := st })) :=
    touching_keep ho rfl rfl
  refine Touching.after (t := s.set a { o with current := st })
    (selectorSetInterest_touching ?_) hset howns
  exact fun _ fd hfd => howns.own a o .client fd rfl ho hfd

/-- The socket of an attempt that has failed is closed. -/
theorem attempt_failed_touching (hF : R.fds fd) (h : Touching sub R s (.ok t)) (e : Errno) :
    Touching sub R s (((sysClose t fd).map fun u => (Status.failed e, u)).map Prod.snd) := by
  have hclose : Touching sub R s (sysClose t fd) := (sysClose_touching fun _ => hF).after h
  cases hres : sysClose t fd with
  | error e => exact touching_error
  | ok u =>
    rw [hres] at hclose
    exact hclose

theorem registerOriginConnect_touching (dial : Dial) :
    Touching (some a) R s ((registerOriginConnect s a dial).map Prod.snd) := by
  intro howns
  unfold registerOriginConnect
  split
  next => exact touching_error howns
  next o ho =>
    split
    next => exact touching_refl howns
    next fd _ =>
      split
      next => exact touching_error howns
      next hfree =>
        have hfd : R.fds fd := howns.free fd (by simpa using hfree)
        have hopen : Touching (some a) R s (.ok (sysOpen s fd (some o.serial) .origin)) :=
          sysOpen_touching hfd (by simp)
        -- The descriptors that a change of origin_fd leaves or adds.
        have hset : ∀ o' : Socks5, o'.clientFd = o.clientFd →
            (o'.originFd = some fd ∨ o'.originFd = none) →
            ∀ u, Touching (some a) R u (.ok (u.set a o')) := by
          intro o' hclient horigin u
          refine touching_set fun _ side e he => ?_
          cases side with
          | client => exact howns.own a o .client e rfl ho (hclient.symm.trans he)
          | origin =>
            rcases horigin with horigin | horigin
            · obtain rfl := Option.some.inj (horigin.symm.trans he)
              exact hfd
            · cases horigin.symm.trans he
        dsimp only
        split
        next e _ => exact attempt_failed_touching hfd hopen e howns
        next =>
          split
          next e _ => exact attempt_failed_touching hfd hopen e howns
          next status _ =>
            split
            next =>
              have hclose : Touching (some a) R s
                  (sysClose (sysOpen s fd (some o.serial) .origin) fd) :=
                (sysClose_touching fun _ => hfd).after hopen
              have hboth := hclose.map (hset { o with originFd := none } rfl (Or.inr rfl))
              cases hres : sysClose (sysOpen s fd (some o.serial) .origin) fd with
              | error e => exact touching_error howns
              | ok u =>
                rw [hres] at hboth
                exact hboth howns
            next u hregister =>
              have hfirst := hset { o with originFd := some fd } rfl (Or.inl rfl)
                (sysOpen s fd (some o.serial) .origin)
              have hlast := hset { o with originFd := some fd, originRegistered := true } rfl
                (Or.inl rfl) u
              have hentry : Touching (some a) R _ (.ok u) :=
                selectorRegister_touching hfd (by simp) hregister
              exact hlast.after (hentry.after (hfirst.after hopen)) howns

theorem resolvedLoop_touching (rest : List AddrInfo) :
    ∀ n e s, Touching (some a) R s ((resolvedLoop a k n e rest s).map Prod.snd) := by
  induction rest with
  | nil =>
    intro n e s
    exact touching_refl
  | cons ai rest ih =>
    intro n e s
    rw [resolvedLoop]
    split
    next => exact touching_error
    next o ho =>
      have hset : Touching (some a) R s (.ok (s.set a { o with dnsNext := rest })) :=
        touching_keep ho rfl rfl
      dsimp only
      split
      next =>
        have hdial : Touching (some a) R s ((registerOriginConnect
            (s.set a { o with dnsNext := rest }) a (k.attempt n)).map Prod.snd) :=
          (registerOriginConnect_touching _).after hset
        split
        next e' u hres =>
          rw [hres] at hdial
          exact (ih (n + 1) e' u).after hdial
        next => exact hdial
      next => exact (ih n e _).after hset

theorem startResolvedConnect_touching :
    Touching (some a) R s ((startResolvedConnect s a o k).map Prod.snd) := by
  unfold startResolvedConnect
  split
  next => exact touching_refl
  next => exact resolvedLoop_touching _ _ _ _

theorem connectDone_touching {status : Status} :
    Touching (some a) R s (connectDone a k status s) := by
  refine touching_owned fun o ho => ?_
  split
  next => exact enters_touching ho _ _
  next =>
    split
    next => exact enters_touching ho _ _
    next =>
      have hset : Touching (some a) R s (.ok (s.set a { o with current := .error })) :=
        touching_keep ho rfl rfl
      exact hset.push (by simp [modest])

theorem connectToOrigin_touching : Touching (some a) R s (connectToOrigin s a k) := by
  refine touching_owned fun o ho => ?_
  split
  next => exact (registerOriginConnect_touching _).bind fun _ => connectDone_touching
  next =>
    split
    next =>
      split
      next => exact connectDone_touching
      next =>
        split
        next => exact startResolvedConnect_touching.bind fun _ => connectDone_touching
        next =>
          split
          next => exact connectDone_touching
          next => exact touching_refl.push (by simp [modest])
    next => exact connectDone_touching

theorem resolveStart_touching : Touching (some a) R s (resolveStart s a) := by
  unfold resolveStart
  split
  next => exact touching_error
  next =>
    refine touching_owned fun o ho => ?_
    have hset : Touching (some a) R s (.ok (s.set a { o with
      dnsPending := true, dnsError := 0, dnsResult := none, dnsNext := [] })) :=
      touching_keep ho rfl rfl
    exact hset.push (by simp [modest])

/-- A worker of the connection is started. -/
theorem worker_touching {w : DnsWorker} (hw : w.socks = a) :
    Touching (some a) R s (.ok { s with workers := s.workers ++ [w] }) := by
  intro howns u hu
  obtain rfl := Except.ok.inj hu
  refine ⟨⟨fun _ _ => rfl, fun _ _ => rfl, fun _ _ => rfl, fun _ _ => Iff.rfl, fun _ _ => rfl, ?_,
    fun _ => Or.inl, Or.inr rfl, fun _ _ => noneNew_same rfl rfl⟩,
    howns.own, howns.free, howns.clear, howns.modest⟩
  intro c hc
  have hne : w.socks ≠ c := by
    rintro rfl
    exact hc (by rw [hw])
  simp [List.filter_append, hne]

theorem resolveSpawn_touching : Touching (some a) R s (resolveSpawn s a k) := by
  refine touching_owned fun o ho => ?_
  have hset : Touching (some a) R s (.ok (s.set a { o with references := o.references + 1 })) :=
    touching_keep ho rfl rfl
  split
  next fd _ _ =>
    refine connectDone_touching.after (Touching.after
      (t := s.set a { o with references := o.references + 1 }) (worker_touching ?_) hset)
    rfl
  next =>
    exact (socks5Release_touching.after hset).map fun _ => touching_refl.push (by simp [modest])
  next => exact touching_error
  next => exact touching_error

theorem resolveFailed_touching {e : Errno} : Touching (some a) R s (resolveFailed s a e k) := by
  unfold resolveFailed
  split
  next => exact touching_error
  next =>
    refine touching_owned fun o ho => ?_
    have hset : Touching (some a) R s (.ok (s.set a { o with dnsPending := false })) :=
      touching_keep ho rfl rfl
    exact connectDone_touching.after hset

theorem originConnectReply_touching : Touching (some a) R s (originConnectReply a k s) := by
  refine touching_owned fun o ho => ?_
  split
  next => exact enters_touching ho _ _
  next => exact enters_touching ho _ _

theorem originDrop_touching : Touching (some a) R s (originDrop s a k) := by
  have hclose : Touching (some a) R s (originCloseFd s a) := originCloseFd_touching
  unfold originDrop
  cases hres : originCloseFd s a with
  | error e => exact touching_error
  | ok t =>
    rw [hres] at hclose
    refine Touching.after (touching_owned fun o _ => ?_) hclose
    split
    next =>
      refine startResolvedConnect_touching.bind fun p => ?_
      split
      next => exact touching_refl
      next => exact originConnectReply_touching
    next => exact originConnectReply_touching

end Connect

section Handlers

theorem relayFlush_touching (fd : Option ℕ) (f : Flush) :
    Touching sub R s (.ok (relayFlush s fd f).2) := by
  obtain ⟨bytes, writes, heq, -⟩ := relayFlush_spec s fd f
  rw [heq]
  exact touching_same rfl rfl rfl rfl rfl rfl rfl rfl

theorem updateInterests_touching
    (ho : Owns (some a) R s → ∀ side fd, sideFd side o = some fd → R.fds fd)
    (client origin : FdInterest) :
    Touching (some a) R s (.ok (relayUpdateInterests s o client origin)) := by
  intro howns
  have hfds := ho howns
  have hclient : Touching (some a) R s (.ok (selectorSetInterest s o.clientFd client)) :=
    selectorSetInterest_touching fun _ => hfds .client
  have horigin : Touching (some a) R (selectorSetInterest s o.clientFd client)
      (.ok (relayUpdateInterests s o client origin)) :=
    selectorSetInterest_touching fun _ => hfds .origin
  exact horigin.after hclient howns

theorem relayHandler_touching (ho : s.heap a = some o) (fd : Option ℕ) (r : Relays) :
    Touching (some a) R s (relayHandler s a o fd r) := by
  cases r with
  | closes f => exact (relayFlush_touching fd f).push (by simp [modest])
  | continues f client origin =>
    have hflush : Touching (some a) R s (.ok (relayFlush s fd f).2) := relayFlush_touching fd f
    have hheap : (relayFlush s fd f).2.heap = s.heap := by
      obtain ⟨bytes, writes, heq, -⟩ := relayFlush_spec s fd f
      rw [heq]
    simp only [relayHandler]
    generalize relayFlush s fd f = r at hflush hheap ⊢
    obtain ⟨open', t⟩ := r
    cases open' with
    | true =>
      refine Touching.after (updateInterests_touching ?_ client origin) hflush
      intro howns side fd hfd
      exact howns.own a o side fd rfl (hheap ▸ ho) hfd
    | false => exact hflush.push (by simp [modest])

theorem socksv5Read_touching (ho : s.heap a = some o) (r : Reads) :
    Touching (some a) R s (socksv5Read s a o k r) := by
  cases r with
  | again => exact selectorSetInterest_touching fun howns fd => howns.own a o .client fd rfl ho
  | closes => exact touching_refl.push (by simp [modest])
  | goes st pending =>
    simp only [socksv5Read]
    split
    next => exact touching_error
    next =>
      split
      next => exact enters_touching ho _ _
      next => exact touching_error
  | dials atyp =>
    simp only [socksv5Read]
    split
    next =>
      have hset : Touching (some a) R s (.ok (s.set a { o with atyp := atyp })) :=
        touching_keep ho rfl rfl
      exact connectToOrigin_touching.after hset
    next => exact touching_error

theorem socksv5Write_touching (ho : s.heap a = some o) (r : Writes) :
    Touching (some a) R s (socksv5Write s a o r) := by
  cases r with
  | again => exact selectorSetInterest_touching fun howns fd => howns.own a o .client fd rfl ho
  | closes => exact touching_refl.push (by simp [modest])
  | goes st pending =>
    simp only [socksv5Write]
    split
    next => exact touching_error
    next =>
      split
      next => exact enters_touching ho _ _
      next => exact touching_error
  | starts client origin =>
    simp only [socksv5Write]
    split
    next =>
      intro howns
      have hset : Touching (some a) R s
          (.ok (s.set a { o with current := .relay, relayStarted := true })) :=
        touching_keep ho rfl rfl
      refine Touching.after (updateInterests_touching ?_ client origin) hset howns
      exact fun _ side fd hfd => howns.own a o side fd rfl ho hfd
    next => exact touching_error

theorem originConnectWriteHandler_touching {it : Item} (ho : s.heap a = some o)
    (hit : s.items fd = some it) (hdata : it.data = some a)
    (hF : Owns (some a) R s → R.fds fd) (error : Status) :
    Touching (some a) R s (originConnectWriteHandler s fd a o error k) := by
  unfold originConnectWriteHandler
  split
  next =>
    refine originConnectReply_touching.after (selectorSetInterest_touching ?_)
    intro howns e he
    obtain rfl := Option.some.inj he
    exact hF howns
  next =>
    split
    next =>
      have hset : Touching (some a) R s (.ok (s.set a { o with originRegistered := false })) :=
        touching_keep ho rfl rfl
      intro howns
      have hclear := fun data => howns.clear fd data (hF howns)
      refine Touching.after (selectorUnregisterFd_touching ?_ fun _ => hclear)
        (hset.push (by simp [modest])) howns
      rintro it' hit' -
      obtain rfl := Option.some.inj (hit.symm.trans hit')
      exact hdata
    next => exact touching_refl.push (by simp [modest])

theorem callHandler_touching {handler : Handler} {op : FdInterest → Bool}
    {f : ℕ → Socks5 → Except Halt Server}
    (h : ∀ it a o, s.items fd = some it → it.handler = handler → it.data = some a →
      s.heap a = some o → Touching (some a) R s (f a o)) :
    Touching ((s.items fd).bind Item.data) R s (callHandler s fd handler op f) := by
  unfold callHandler
  split
  next => exact touching_error
  next a hdispatched =>
    obtain ⟨it, hit, hhandler, -, hdata⟩ := dispatched_iff.mp hdispatched
    rw [hit, Option.bind_some, hdata]
    exact touching_owned fun o ho => h it a o hit hhandler hdata ho

end Handlers

section Loops

/-- The job at the head of the list goes, and its reference. -/
theorem job_touching {j : BlockingJob} {js : List BlockingJob} (hjobs : s.jobs = j :: js)
    (hfs : ∀ f ∈ fs, R.calls f) : Touching (some j.data) R s
      ((socks5Release s j.data).map fun s => { s.push fs with jobs := js }) := by
  rw [release_jobs]
  have hpush : Touching (some j.data) R s (.ok (s.push fs)) := touching_refl.pushes fun _ => hfs
  refine Touching.after (t := { s.push fs with jobs := js }) socks5Release_touching
    (Touching.after (t := s.push fs) ?_ hpush)
  intro howns u hu
  obtain rfl := Except.ok.inj hu
  refine ⟨⟨fun _ _ => rfl, fun _ _ => rfl, fun _ _ => rfl, fun _ _ => Iff.rfl, ?_, fun _ _ => rfl,
    fun _ => Or.inl, Or.inr rfl, fun _ _ => noneNew_same rfl rfl⟩, howns.own, howns.free,
    howns.clear, howns.modest⟩
  intro c hc
  have hne : j.data ≠ c := fun heq => hc (by rw [heq])
  simp [Server.push, hjobs, hne]

theorem notifications_touching :
    Touching (s.jobs.head?.map BlockingJob.data) R s (handleBlockNotifications s k) := by
  unfold handleBlockNotifications
  split
  next => exact touching_refl
  next j js hjobs =>
    simp only [hjobs, List.head?_cons, Option.map_some]
    have hpush : Touching (some j.data) R s (.ok (s.push [.cleanup, .notifications])) :=
      touching_refl.push (by simp [modest])
    split
    next =>
      refine Touching.after ?_ hpush
      unfold socksv5BlockDone
      split
      next => exact touching_error
      next =>
        refine touching_owned fun o ho => connectToOrigin_touching.after ?_
        have hset : Touching (some j.data) R _ (.ok
            ((s.push [.cleanup, .notifications]).set j.data { o with dnsPending := false })) :=
          touching_keep ho rfl rfl
        refine Touching.after (t := (s.push [.cleanup, .notifications]).set j.data
          { o with dnsPending := false }) ?_ hset
        exact touching_same rfl rfl rfl rfl rfl rfl rfl rfl
    next => exact hpush

theorem cleanup_touching :
    Touching (s.jobs.head?.map BlockingJob.data) R s (jobCleanup s) := by
  unfold jobCleanup
  split
  next => exact touching_error
  next j js hjobs =>
    simp only [hjobs, List.head?_cons, Option.map_some]
    exact job_touching hjobs (List.forall_mem_nil R.calls)

theorem destroyJobs_touching (hdestroy : ∀ f, ofDestroy f = true → R.calls f) :
    Touching (s.jobs.head?.map BlockingJob.data) R s (destroyJobs s) := by
  unfold destroyJobs
  split
  next => exact touching_refl.pushes (by simpa using fun _ => hdestroy .ended rfl)
  next j js hjobs =>
    simp only [hjobs, List.head?_cons, Option.map_some]
    exact job_touching hjobs (by simpa using hdestroy .destroyJobs rfl)

theorem force_touching : Touching s.pool.head? R s (poolForceShutdown s) := by
  unfold poolForceShutdown
  split
  next => exact touching_refl
  next a rest hpool =>
    rw [hpool, List.head?_cons]
    exact socks5Cancel_touching.after (touching_refl.push (by simp [modest]))

theorem forceCheck_touching : Touching (some a) R s (forceCheck s a) := by
  unfold forceCheck
  split
  next => exact socksv5PoolRemove_touching
  next => exact touching_refl

theorem destroy_touching (hclear : ∀ data, R.calls (.clear i data))
    (hdestroy : ∀ f, ofDestroy f = true → R.calls f) :
    Touching ((s.items i).bind Item.data) R s (selectorDestroy s i) := by
  unfold selectorDestroy
  split
  next =>
    have hpush : Touching ((s.items i).bind Item.data) R s (.ok (s.push [.destroy (i + 1)])) :=
      touching_refl.pushes (by simpa using fun _ => hdestroy (.destroy (i + 1)) rfl)
    refine Touching.after (selectorUnregisterFd_touching ?_ fun _ => hclear) hpush
    intro it hit _
    have hitem : s.items i = some it := hit
    rw [hitem, Option.bind_some]
  next => exact touching_refl.pushes (by simpa using fun _ => hdestroy .destroyJobs rfl)

end Loops

section Opening

theorem poolAdd_touching : Touching (some a) R s (.ok (socksv5PoolAdd s a)) := by
  intro howns u hu
  obtain rfl := Except.ok.inj hu
  refine ⟨⟨fun _ _ => rfl, fun _ _ => rfl, fun _ _ => rfl, ?_, fun _ _ => rfl, fun _ _ => rfl,
    fun _ => Or.inl, Or.inr rfl, fun _ _ => noneNew_same rfl rfl⟩,
    howns.own, howns.free, howns.clear, howns.modest⟩
  intro c hc
  have hca : c ≠ a := fun heq => hc (by rw [heq])
  simp [socksv5PoolAdd, hca]

/-- A connection that has only the descriptor `fd` is written to `a`. -/
theorem client_touching (hF : R.fds fd) (hclient : o.clientFd = some fd)
    (horigin : o.originFd = none) : Touching (some a) R s (.ok (s.set a o)) := by
  refine touching_set fun _ side e he => ?_
  cases side with
  | client =>
    obtain rfl := Option.some.inj (hclient.symm.trans he)
    exact hF
  | origin => cases horigin.symm.trans he

theorem accept_touching (haccepts : R.accepts) (nio : Bool) (state : Option ℕ) :
    Touching state R s (socksv5PassiveAccept s fd nio state) := by
  intro howns
  unfold socksv5PassiveAccept
  split
  next => exact touching_error howns
  next hfree =>
    have hfd : R.fds fd := howns.free fd (by simpa using hfree)
    let u : Server :=
      { sysOpen s fd (some s.accepted) .client with accepted := s.accepted + 1 }
    have hcount : Touching state R (sysOpen s fd (some s.accepted) .client) (.ok u) := by
      intro howns v hv
      obtain rfl := Except.ok.inj hv
      exact ⟨⟨fun _ _ => rfl, fun _ _ => rfl, fun _ _ => rfl, fun _ _ => Iff.rfl, fun _ _ => rfl,
        fun _ _ => rfl, fun _ => Or.inl, Or.inl haccepts, fun _ _ => noneNew_same rfl rfl⟩,
        howns.own, howns.free, howns.clear, howns.modest⟩
    have hopen : Touching state R s (.ok u) := hcount.after (sysOpen_touching hfd (by simp))
    dsimp only
    split
    next a =>
      split
      next => exact touching_error howns
      next =>
        let v : Server := { u.set a (socks5Init s.accepted fd) with
          books := { u.books with
            states := u.books.states.issue s.accepted
            owners := u.books.owners.issue s.accepted } }
        have hset : Touching (some a) R u (.ok (u.set a (socks5Init s.accepted fd))) :=
          client_touching hfd rfl rfl
        have hbooks : Touching (some a) R s (.ok v) :=
          Touching.after (t := u.set a (socks5Init s.accepted fd))
            (touching_same rfl rfl rfl rfl rfl rfl rfl rfl) (hset.after hopen)
        split
        next =>
          have hrelease : Touching (some a) R v ((ownerRelease v a).map id) :=
            ownerRelease_touching.map fun _ => touching_refl
          exact (hrelease.bind fun _ => sysClose_touching fun _ => hfd).after hbooks howns
        next w hregister =>
          have hentry : Touching (some a) R v (.ok w) :=
            selectorRegister_touching hfd (by simp) hregister
          have hlast : Touching (some a) R w (.ok (w.set a
              { socks5Init s.accepted fd with clientRegistered := true })) :=
            client_touching hfd rfl rfl
          exact poolAdd_touching.after (hlast.after (hentry.after hbooks)) howns
    next => exact (sysClose_touching fun _ => hfd).after hopen howns

theorem otherOpen_touching (hopens : R.opens fd) (state : Option ℕ) (op : FdInterest) :
    Touching sub R s (otherOpen s fd state op) := by
  intro howns
  unfold otherOpen
  split
  next => exact touching_error howns
  next hfree =>
    have hfd : R.fds fd := by
      refine howns.free fd ?_
      rw [Bool.or_eq_true, not_or] at hfree
      simpa using hfree.1
    have hopen : Touching sub R s (.ok (sysOpen s fd none .client)) :=
      sysOpen_touching hfd fun _ => hopens
    dsimp only
    split
    next => exact (sysClose_touching fun _ => hfd).after hopen howns
    next v hregister =>
      have hentry : Touching sub R _ (.ok v) :=
        selectorRegister_touching hfd (fun _ => hopens) hregister
      exact Touching.after (t := v) (touching_same rfl rfl rfl rfl rfl rfl rfl rfl)
        (hentry.after hopen) howns

theorem otherClose_touching (hclear : ∀ data, R.calls (.clear fd data))
    (hclose : R.calls (.close fd)) : Touching sub R s (otherClose s fd) := by
  unfold otherClose
  split
  next it hit =>
    split
    next hother =>
      have hpush : Touching sub R s (.ok (s.push [.close fd])) :=
        touching_refl.pushes (by simpa using fun _ => hclose)
      refine Touching.after (selectorUnregisterFd_touching ?_ fun _ => hclear) hpush
      intro it' hit' hnot
      obtain rfl := Option.some.inj (hit.symm.trans hit')
      exact absurd hother hnot
    next => exact touching_error
  next => exact touching_error

end Opening

section Workers

theorem filter_set {α : Type*} {p : α → Bool} {x y : α} (hx : p x = false) (hy : p y = false)
    (l : List α) : ∀ i, l[i]? = some x → (l.set i y).filter p = l.filter p := by
  induction l with
  | nil => simp
  | cons z l ih =>
    intro i hi
    cases i with
    | zero =>
      obtain rfl := Option.some.inj hi
      simp [hx, hy]
    | succ i =>
      have hrest := ih i hi
      simp only [List.set_cons_succ, List.filter_cons, hrest]

/-- A worker of the connection goes on. -/
theorem setWorker_touching (hi : s.workers[i]? = some w) (st : WorkerState) :
    Touching (some w.socks) R s (.ok (setWorker s i w st)) := by
  intro howns u hu
  obtain rfl := Except.ok.inj hu
  refine ⟨⟨fun _ _ => rfl, fun _ _ => rfl, fun _ _ => rfl, fun _ _ => Iff.rfl, fun _ _ => rfl, ?_,
    fun _ => Or.inl, Or.inr rfl, fun _ _ => noneNew_same rfl rfl⟩,
    howns.own, howns.free, howns.clear, howns.modest⟩
  intro c hc
  have hne : w.socks ≠ c := fun heq => hc (by rw [heq])
  exact filter_set (by simpa using hne) (by simpa using hne) _ i hi

theorem workerFinish_touching (hi : s.workers[i]? = some w) (error : ℤ) (result : List AddrInfo) :
    Touching (some w.socks) R s (workerFinish s i w error result) := by
  unfold workerFinish
  split
  next => exact touching_error
  next =>
    split
    next => exact touching_error
    next o ho =>
      -- Only the books differ from `s`.
      have hgoes : ∀ u : Server, u.heap = s.heap → u.workers = s.workers →
          Touching (some w.socks) R s (.ok u) → ∀ (o' : Socks5) (st : WorkerState),
          o'.clientFd = o.clientFd → o'.originFd = o.originFd →
          Touching (some w.socks) R s (.ok (setWorker (u.set w.socks o') i w st)) := by
        intro u hheap hworkers hu o' st hclient horigin
        have hset : Touching (some w.socks) R u (.ok (u.set w.socks o')) :=
          touching_keep (by rw [hheap]; exact ho) hclient horigin
        refine (setWorker_touching ?_ st).after (hset.after hu)
        exact (congrArg (·[i]?) hworkers).trans hi
      dsimp only
      by_cases hresult : result = []
      · simp only [if_pos hresult]
        split
        next => refine hgoes s rfl rfl touching_refl _ _ ?_ ?_ <;> rfl
        next => refine hgoes s rfl rfl touching_refl _ _ ?_ ?_ <;> rfl
      · simp only [if_neg hresult]
        let u : Server := { s with
          books := { s.books with results := s.books.results.issue s.books.results.issued.length } }
        have hu : Touching (some w.socks) R s (.ok u) :=
          touching_same rfl rfl rfl rfl rfl rfl rfl rfl
        split
        next => refine hgoes u rfl rfl hu _ _ ?_ ?_ <;> rfl
        next => refine hgoes u rfl rfl hu _ _ ?_ ?_ <;> rfl

theorem notify_touching (hi : s.workers[i]? = some w) (queued : Bool) :
    Touching (some w.socks) R s (selectorNotifyBlockDone s i w queued) := by
  unfold selectorNotifyBlockDone
  split
  next =>
    split
    next => exact touching_error
    next =>
      split
      next => exact touching_error
      next =>
        let v := setWorker s i w (.unlocking true)
        refine Touching.after (t := v) ?_ (setWorker_touching hi _)
        intro howns u hu
        obtain rfl := Except.ok.inj hu
        refine ⟨⟨fun _ _ => rfl, fun _ _ => rfl, fun _ _ => rfl, fun _ _ => Iff.rfl, ?_,
          fun _ _ => rfl, fun _ => Or.inl, Or.inr rfl, fun _ _ => noneNew_same rfl rfl⟩, howns.own,
          howns.free, howns.clear, howns.modest⟩
        intro c hc
        have hne : w.socks ≠ c := fun heq => hc (by rw [heq])
        simp [v, setWorker, hne]
  next => exact setWorker_touching hi _

theorem dnsWorker_touching (hi : s.workers[i]? = some w) (e : WorkerStep) :
    Touching (some w.socks) R s (dnsWorker s i w e) := by
  cases e with
  | finish error result =>
    simp only [dnsWorker]
    split
    next => exact workerFinish_touching hi error result
    next => exact touching_error
  | notify queued =>
    simp only [dnsWorker]
    split
    next => exact notify_touching hi queued
    next => exact touching_error
  | unlock =>
    simp only [dnsWorker]
    split
    next =>
      split
      next => exact setWorker_touching hi _
      next => exact touching_error
    next => exact touching_error
  | release =>
    simp only [dnsWorker]
    split
    next =>
      rw [Parts.release_worker]
      exact socks5Release_touching.after (setWorker_touching hi _)
    next => exact touching_error
  | exit =>
    simp only [dnsWorker]
    split
    next => exact setWorker_touching hi _
    next =>
      exact Touching.after (t := setWorker s i w .exited)
        (touching_same rfl rfl rfl rfl rfl rfl rfl rfl) (setWorker_touching hi _)
    next => exact touching_error

end Workers

section System

/-- The connection that the call on top of the stack is for. -/
def frameSubject (s : Server) : Frame → Option ℕ
  | .connectionClose a | .cancel a | .clientClose a | .clientCloseFd a _ => some a
  | .originClose a | .originCloseFd a | .release a => some a
  | .clear _ data => data
  | .resolveStart a | .resolveSpawn a | .resolveFailed a _ | .originDrop a => some a
  | .close _ => none
  | .notifications | .cleanup | .destroyJobs => s.jobs.head?.map BlockingJob.data
  | .force => s.pool.head?
  | .forceCheck a => some a
  | .destroy i => (s.items i).bind Item.data
  | .ended => none

/-- The connection that a step is taken for. -/
def subject (s : Server) : Event → Option ℕ
  | .accept _ _ state => state
  | .clientRead fd _ _ _ | .clientWrite fd _ _ | .originRead fd _ | .originWrite fd _ _ _ =>
    (s.items fd).bind Item.data
  | .notifications | .forceShutdown | .destroy | .otherOpen _ _ _ | .otherClose _ => none
  | .run _ => s.stack.head?.bind (frameSubject s)
  | .worker i _ => s.workers[i]?.map DnsWorker.socks

/-- The descriptors that a step may use: those of its connection, those that are not
open, and one that it closes. -/
def Scope (s : Server) (e : Event) (fd : ℕ) : Prop :=
  s.fds fd = none ∨
  (∃ c o side, subject s e = some c ∧ s.heap c = some o ∧ sideFd side o = some fd) ∨
  ∃ k, e = .run k ∧ s.stack.head? = some (.close fd)

/-- The calls that a step may begin. -/
def Begun (s : Server) (e : Event) : Frame → Prop
  | .close fd => e = .otherClose fd
  | .clear fd _ => Scope s e fd ∨ e = .otherClose fd ∨ s.stack.head? = some (.destroy fd)
  | .destroy _ | .destroyJobs | .ended => e = .destroy ∨ ∃ f ∈ s.stack, ofDestroy f = true
  | _ => True

/-- The server accepts a client. -/
def accepting : Event → Bool
  | .accept _ _ _ => true
  | _ => false

/-- What the step `e` may use. -/
def reach (s : Server) (e : Event) : Reach where
  fds := Scope s e
  calls := Begun s e
  accepts := accepting e = true
  opens := fun fd => ∃ state i, e = .otherOpen fd state i

/-- Nothing of the connection `c` is different in `t`. -/
structure Undisturbed (c : ℕ) (s t : Server) : Prop where
  heap : t.heap c = s.heap c
  pool : c ∈ t.pool ↔ c ∈ s.pool
  sockets : ∀ o side fd, s.heap c = some o → sideFd side o = some fd → t.fds fd = s.fds fd
  entries : ∀ o side fd, s.heap c = some o → sideRegistered side o = true →
    sideFd side o = some fd → t.items fd = s.items fd
  jobs : (t.jobs.filter fun j => j.data = c) = s.jobs.filter fun j => j.data = c
  workers : (t.workers.filter fun w => w.socks = c) = s.workers.filter fun w => w.socks = c

theorem Undisturbed.trans (h : Undisturbed c s t) (h' : Undisturbed c t u) : Undisturbed c s u := by
  refine ⟨h'.heap.trans h.heap, h'.pool.trans h.pool, ?_, ?_, h'.jobs.trans h.jobs,
    h'.workers.trans h.workers⟩
  · intro o side fd ho hfd
    rw [h'.sockets o side fd (h.heap.trans ho) hfd, h.sockets o side fd ho hfd]
  · intro o side fd ho hreg hfd
    rw [h'.entries o side fd (h.heap.trans ho) hreg hfd, h.entries o side fd ho hreg hfd]

theorem owns_reach : Owns (subject s e) (reach s e) s := by
  refine ⟨?_, ?_, ?_, ?_⟩
  · exact fun c o side fd hc ho hfd => Or.inr (Or.inl ⟨c, o, side, hc, ho, hfd⟩)
  · exact fun fd hfd => Or.inl hfd
  · exact fun fd data hfd => Or.inl hfd
  · intro f hf
    cases f <;> simp [modest, reach, Begun] at hf ⊢

theorem entered (h : Ok s d b) : Entered s a := by
  intro o side fd it ho hreg hfd hit
  obtain ⟨it', hit', -, -, hdata⟩ := registered_entry h.ground.parts ho hreg hfd
  obtain rfl := Option.some.inj (hit.symm.trans hit')
  exact hdata

/-- The descriptor that client_close is about to close is the one of the client. -/
theorem closing_fd (h : Ok s d b) (hstack : s.stack = .clientCloseFd a fd :: fs) :
    ∀ o, s.heap a = some o → o.clientFd = some fd := by
  have hframes := hstack.symm.trans h.ground.stack
  have hd : d = .clientCloseFd a fd := by
    cases d with
    | nothing => cases b <;> simp [Doing.frames, Bottom.frames] at hframes
    | _ => simp_all [Doing.frames]
  subst hd
  obtain ⟨o, ho, -, -, -, hfd⟩ := h.stage a rfl
  intro o' ho'
  obtain rfl := Option.some.inj (ho.symm.trans ho')
  exact hfd

theorem clearing_top {data : Option ℕ} (h : Ok s d b) (hstack : s.stack = .clear fd data :: fs) :
    fd ∈ d.clearing ++ b.clearing := by
  have hframes := hstack.symm.trans h.ground.stack
  cases d with
  | nothing => cases b <;> simp_all [Doing.frames, Bottom.frames, Doing.clearing, Bottom.clearing]
  | _ => simp_all [Doing.frames, Doing.clearing]

/-- The main thread goes on with a call; to clear an entry is not meant here. -/
theorem runFrame_touching (h : Ok s d b) (hstack : s.stack = f :: fs)
    (hclear : ∀ fd data, f ≠ .clear fd data) :
    Touching (frameSubject s f) (reach s (.run k)) s
      (runFrame { s with stack := fs } k f) := by
  have hpop : Touching (frameSubject s f) (reach s (.run k)) s
      (.ok { s with stack := fs }) := by
    refine touching_frames rfl rfl rfl rfl rfl rfl (fun _ g hg => Or.inl ?_) rfl
    rw [hstack]
    exact List.mem_cons_of_mem _ hg
  have hdestroying : ofDestroy f = true → ∀ g, ofDestroy g = true → Begun s (.run k) g := by
    intro hf g hg
    have hmem : ∃ f ∈ s.stack, ofDestroy f = true := ⟨f, by simp [hstack], hf⟩
    cases g with
    | destroy _ => exact Or.inr hmem
    | destroyJobs => exact Or.inr hmem
    | ended => exact Or.inr hmem
    | _ => exact absurd hg (by simp [ofDestroy])
  refine Touching.after ?_ hpop
  cases f with
  | connectionClose a => exact socks5ConnectionClose_touching
  | cancel a => exact socks5Cancel_touching
  | clientClose a => exact clientClose_touching (entered (s := s) h)
  | clientCloseFd a fd => exact clientCloseFd_touching (closing_fd (s := s) h hstack)
  | originClose a => exact originClose_touching (entered (s := s) h)
  | originCloseFd a => exact originCloseFd_touching
  | release a => exact ownerRelease_touching
  | clear fd data => exact absurd rfl (hclear fd data)
  | resolveStart a => exact resolveStart_touching
  | resolveSpawn a => exact resolveSpawn_touching
  | resolveFailed a e => exact resolveFailed_touching
  | originDrop a => exact originDrop_touching
  | close fd => exact sysClose_touching fun _ => Or.inr (Or.inr ⟨k, rfl, by rw [hstack]; rfl⟩)
  | notifications => exact notifications_touching (s := { s with stack := fs })
  | cleanup => exact cleanup_touching (s := { s with stack := fs })
  | force => exact force_touching (s := { s with stack := fs })
  | forceCheck a => exact forceCheck_touching
  | destroy i =>
    refine destroy_touching (s := { s with stack := fs }) (fun data => Or.inr (Or.inr ?_))
      (hdestroying rfl)
    rw [hstack]
    rfl
  | destroyJobs => exact destroyJobs_touching (s := { s with stack := fs }) (hdestroying rfl)
  | ended => exact touching_error

theorem begins_touching (h : Ok s .nothing .idle) (e : Event) :
    Touching (subject s e) (reach s e) s (begins s e) := by
  cases e with
  | accept fd nio state => exact accept_touching rfl nio state
  | clientRead fd r relay k =>
    refine callHandler_touching fun _ a o _ _ _ ho => ?_
    split
    next => exact relayHandler_touching ho _ relay
    next => exact socksv5Read_touching ho r
  | clientWrite fd r relay =>
    refine callHandler_touching fun _ a o _ _ _ ho => ?_
    split
    next => exact relayHandler_touching ho _ relay
    next => exact socksv5Write_touching ho r
  | originRead fd relay =>
    exact callHandler_touching fun _ a o _ _ _ ho => relayHandler_touching ho _ relay
  | originWrite fd error relay k =>
    refine callHandler_touching fun it a o hit hhandler hdata ho => ?_
    split
    next => exact relayHandler_touching ho _ relay
    next =>
      refine originConnectWriteHandler_touching ho hit hdata (fun howns => ?_) error
      have hside : it.handler ≠ .other := by simp [hhandler]
      obtain ⟨side, c, p, -, hc, hp, -, hfd, -⟩ :=
        h.ground.parts.entries.entry fd it hit (by simp [Doing.clearing, Bottom.clearing]) hside
      exact howns.own c p side fd (hdata.symm.trans hc) hp hfd
  | notifications => exact touching_refl.push (by simp [modest])
  | forceShutdown => exact touching_refl.push (by simp [modest])
  | destroy =>
    refine touching_refl.pushes fun _ f hf => ?_
    obtain rfl := List.mem_singleton.mp hf
    exact Or.inl rfl
  | otherOpen fd state i =>
    have hopens : (reach s (.otherOpen fd state i)).opens fd := ⟨state, i, rfl⟩
    exact otherOpen_touching hopens state i
  | otherClose fd => exact otherClose_touching (fun _ => Or.inr (Or.inl rfl)) rfl
  | run k => exact touching_error
  | worker i w => exact touching_error

/-- A step clears an entry, or keeps to its connection and its descriptors. -/
theorem step_touches (h : Sound s) (hstep : Step s e t) :
    (∃ k fd data fs, e = .run k ∧ s.stack = .clear fd data :: fs ∧
      t = { s with stack := fs }.setItem fd none) ∨
    Touches (subject s e) (reach s e) s t := by
  obtain ⟨d, b, hok⟩ := h
  have hdone : Touching (subject s e) (reach s e) s (.ok t) →
      Touches (subject s e) (reach s e) s t :=
    fun htouch => (htouch owns_reach t rfl).1
  have hbegins : (if s.stack = [] then begins s e else .error .unreal) = .ok t →
      Touches (subject s e) (reach s e) s t := by
    split
    next hstack =>
      intro heq
      have htouch := begins_touching (idle_of_empty hok hstack) e
      rw [heq] at htouch
      exact hdone htouch
    next =>
      intro heq
      cases heq
  have hstep' : step s e = .ok t := hstep
  cases e with
  | run k =>
    rw [step] at hstep'
    split at hstep'
    next => cases hstep'
    next f fs hstack =>
      by_cases hclear : ∃ fd data, f = .clear fd data
      · obtain ⟨fd, data, rfl⟩ := hclear
        exact Or.inl ⟨k, fd, data, fs, rfl, hstack, (Except.ok.inj hstep').symm⟩
      · have hsub : subject s (.run k) = frameSubject s f := by
          simp only [subject, hstack, List.head?_cons, Option.bind_some]
        have htouch := runFrame_touching (k := k) hok hstack
          fun fd data heq => hclear ⟨fd, data, heq⟩
        rw [← hsub, hstep'] at htouch
        exact Or.inr (hdone htouch)
  | worker i w =>
    rw [step] at hstep'
    split at hstep'
    next => cases hstep'
    next worker hi =>
      have hsub : subject s (.worker i w) = some worker.socks := by
        simp only [subject, hi, Option.map_some]
      have htouch : Touching (some worker.socks) (reach s (.worker i w)) s _ :=
        dnsWorker_touching hi w
      rw [← hsub, hstep'] at htouch
      exact Or.inr (hdone htouch)
  | _ => exact Or.inr (hbegins hstep')

/-- The descriptors of a connection are not in the scope of a step for another. -/
theorem scope_of_stored (h : Ok s d b) (ho : s.heap c = some o) (hfd : sideFd side o = some fd)
    (hother : subject s e ≠ some c) : ¬ Scope s e fd := by
  have hsockets := h.ground.parts.sockets
  obtain ⟨sk, hsk, howner, -⟩ := hsockets.stored_open c o side fd ho hfd
  rintro (hfree | ⟨c', o', side', hc', ho', hfd'⟩ | ⟨k, rfl, hhead⟩)
  · cases hsk.symm.trans hfree
  · obtain ⟨sk', hsk', howner', -⟩ := hsockets.stored_open c' o' side' fd ho' hfd'
    obtain rfl := Option.some.inj (hsk.symm.trans hsk')
    have hserial := Option.some.inj (howner.symm.trans howner')
    rw [h.ground.parts.refs.serial_inj c c' o o' ho ho' hserial] at hother
    exact hother hc'
  · obtain ⟨fs, hstack⟩ : ∃ fs, s.stack = .close fd :: fs := by
      cases hs : s.stack with
      | nil => rw [hs] at hhead; cases hhead
      | cons f fs =>
        rw [hs] at hhead
        exact ⟨fs, by rw [Option.some.inj hhead]⟩
    have hframes := hstack.symm.trans h.ground.stack
    have hb : b = .closeOther fd := by
      cases d with
      | nothing => cases b <;> simp_all [Doing.frames, Bottom.frames]
      | _ => simp [Doing.frames] at hframes
    subst hb
    obtain ⟨-, sk', hsk', hnone⟩ := h.ground.footing
    obtain rfl := Option.some.inj (hsk.symm.trans hsk')
    cases hnone.symm.trans howner

/-- A step changes nothing of the connections that it is not taken for. -/
theorem step_undisturbed (h : Sound s) (hstep : Step s e t) (hother : subject s e ≠ some c) :
    Undisturbed c s t := by
  obtain ⟨d, b, hok⟩ := h
  have hscope : ∀ p side fd, s.heap c = some p → sideFd side p = some fd → ¬ Scope s e fd :=
    fun p side fd hp hfd => scope_of_stored hok hp hfd hother
  rcases step_touches ⟨d, b, hok⟩ hstep with ⟨k, fd, data, fs, rfl, hstack, rfl⟩ | htouch
  · refine ⟨rfl, Iff.rfl, fun _ _ _ _ _ => rfl, ?_, rfl, rfl⟩
    intro p side e hp hreg hfd
    obtain ⟨it, -, hnot, -⟩ := registered_entry hok.ground.parts hp hreg hfd
    have hne : e ≠ fd := by
      rintro rfl
      exact hnot (clearing_top hok hstack)
    simp [Server.setItem, Function.update_of_ne hne]
  · refine ⟨htouch.heap c hother, htouch.pool c hother, ?_, ?_, htouch.jobs c hother,
      htouch.workers c hother⟩
    · exact fun p side fd hp hfd => htouch.fds fd (hscope p side fd hp hfd)
    · exact fun p side fd hp _ hfd => htouch.items fd (hscope p side fd hp hfd)

/-- `fd` is open for no connection, and no call under way names it. -/
structure Aside (s : Server) (fd : ℕ) : Prop where
  socket : ∃ sk, s.fds fd = some sk ∧ sk.owner = none
  unclosed : .close fd ∉ s.stack
  uncleared : ∀ data, .clear fd data ∉ s.stack

theorem scope_of_unowned (h : Ok s d b) (hopen : ∃ sk, s.fds fd = some sk ∧ sk.owner = none)
    (hclose : .close fd ∉ s.stack) : ¬ Scope s e fd := by
  obtain ⟨sk, hsk, hnone⟩ := hopen
  rintro (hfree | ⟨c, o, side, -, ho, hfd⟩ | ⟨k, rfl, hhead⟩)
  · cases hsk.symm.trans hfree
  · obtain ⟨sk', hsk', howner, -⟩ := h.ground.parts.sockets.stored_open c o side fd ho hfd
    obtain rfl := Option.some.inj (hsk.symm.trans hsk')
    cases hnone.symm.trans howner
  · exact hclose (List.mem_of_head? hhead)

/-- What is open for no connection stays open until it is closed by name. -/
theorem step_open (h : Sound s) (hstep : Step s e t)
    (hopen : ∃ sk, s.fds fd = some sk ∧ sk.owner = none) (hclose : .close fd ∉ s.stack)
    (hnot : e ≠ .otherClose fd) : t.fds fd = s.fds fd ∧ .close fd ∉ t.stack := by
  obtain ⟨d, b, hok⟩ := h
  rcases step_touches ⟨d, b, hok⟩ hstep with ⟨k, e, data, fs, rfl, hstack, rfl⟩ | htouch
  · refine ⟨rfl, ?_⟩
    intro hmem
    exact hclose (by rw [hstack]; exact List.mem_cons_of_mem _ hmem)
  · refine ⟨htouch.fds fd (scope_of_unowned hok hopen hclose), ?_⟩
    intro hmem
    rcases htouch.stack _ hmem with hmem | hbegun
    · exact hclose hmem
    · exact hnot hbegun

/-- An entry that is no connection's stays until it is unregistered by name, or the
selector is destroyed. -/
theorem step_aside (h : Sound s) (hstep : Step s e t) (ha : Aside s fd)
    (hnot : e ≠ .otherClose fd) (hdestroy : .destroy fd ∉ s.stack) :
    Aside t fd ∧ t.items fd = s.items fd := by
  obtain ⟨hfds, hunclosed⟩ := step_open h hstep ha.socket ha.unclosed hnot
  have hsocket : ∃ sk, t.fds fd = some sk ∧ sk.owner = none := by
    rw [hfds]
    exact ha.socket
  obtain ⟨d, b, hok⟩ := h
  have hscope : ¬ Scope s e fd := scope_of_unowned hok ha.socket ha.unclosed
  rcases step_touches ⟨d, b, hok⟩ hstep with ⟨k, e, data, fs, rfl, hstack, rfl⟩ | htouch
  · have hne : fd ≠ e := by
      rintro rfl
      exact ha.uncleared data (by rw [hstack]; exact List.mem_cons_self)
    refine ⟨⟨hsocket, hunclosed, ?_⟩, ?_⟩
    · intro data' hmem
      exact ha.uncleared data' (by rw [hstack]; exact List.mem_cons_of_mem _ hmem)
    · simp [Server.setItem, Function.update_of_ne hne]
  · refine ⟨⟨hsocket, hunclosed, ?_⟩, htouch.items fd hscope⟩
    intro data hmem
    rcases htouch.stack _ hmem with hmem | hin | heq | hhead
    · exact ha.uncleared data hmem
    · exact hscope hin
    · exact hnot heq
    · exact hdestroy (List.mem_of_head? hhead)

/-- Nothing is opened for no connection but by name. -/
theorem step_noneNew (h : Sound s) (hstep : Step s e t)
    (hnot : ∀ state i, e ≠ .otherOpen fd state i) : NoneNew fd s t := by
  rcases step_touches h hstep with ⟨k, e, data, fs, rfl, hstack, rfl⟩ | htouch
  · refine ⟨fun _ hsk _ => hsk, ?_⟩
    intro it hit hother
    rcases Ledger.update_eq_some hit with ⟨-, hnew⟩ | ⟨-, hit⟩
    · cases hnew
    · exact ⟨it, hit, hother⟩
  · exact htouch.unowned fd fun ⟨state, i, heq⟩ => hnot state i heq

/-- selector_destroy is begun by main only. -/
theorem step_destroying (h : Sound s) (hstep : Step s e t) (hnot : e ≠ .destroy)
    (hs : ∀ f ∈ s.stack, ofDestroy f = false) : ∀ f ∈ t.stack, ofDestroy f = false := by
  intro f hf
  by_contra hof
  rw [Bool.not_eq_false] at hof
  have hnone : ¬ ∃ f ∈ s.stack, ofDestroy f = true := by
    rintro ⟨g, hg, hgof⟩
    rw [hs g hg] at hgof
    cases hgof
  rcases step_touches h hstep with ⟨k, e, data, fs, rfl, hstack, rfl⟩ | htouch
  · exact hnone ⟨f, by rw [hstack]; exact List.mem_cons_of_mem _ hf, hof⟩
  · rcases htouch.stack f hf with hmem | hbegun
    · exact hnone ⟨f, hmem, hof⟩
    · cases f with
      | destroy _ => exact hbegun.elim hnot hnone
      | destroyJobs => exact hbegun.elim hnot hnone
      | ended => exact hbegun.elim hnot hnone
      | _ => exact absurd hof (by simp [ofDestroy])

/-- Clients are accepted by socksv5_passive_accept only. -/
theorem step_accepted (h : Sound s) (hstep : Step s e t) (hnot : accepting e = false) :
    t.accepted = s.accepted := by
  rcases step_touches h hstep with ⟨k, e, data, fs, rfl, hstack, rfl⟩ | htouch
  · rfl
  · rcases htouch.accepted with haccepts | heq
    · cases hnot.symm.trans haccepts
    · exact heq

/-- As long as no step is taken for a connection, it stays as it is: its state, its
sockets and the entries it has registered, its membership in the pool, its jobs and its
workers. -/
theorem undisturbed_run (h : Reachable s)
    (hrun : Run (Guarded Step fun s e => subject s e ≠ some c) s es t) : Undisturbed c s t := by
  have hall : Sound t ∧ Undisturbed c s t := by
    refine hrun.invariant (I := fun t => Sound t ∧ Undisturbed c s t)
      ⟨reachable_ok h, ⟨rfl, Iff.rfl, fun _ _ _ _ _ => rfl, fun _ _ _ _ _ _ => rfl, rfl, rfl⟩⟩ ?_
    rintro u v e ⟨hu, hsame⟩ ⟨hother, hstep⟩
    exact ⟨Sound.step hu hstep, hsame.trans (step_undisturbed hu hstep hother)⟩
  exact hall.2

/-- A second client is served while the lookup of the first is under way. -/
theorem undisturbed_run_asked : ∃ s t o, play serverInit (asks 1 5) = .ok s ∧
    s.heap 1 = some o ∧ o.dnsPending = true ∧
    Run (Guarded Step fun s e => subject s e ≠ some 1) s
      [.accept 6 true (some 2), .clientRead 6 (.goes .helloWrite true) (.closes ⟨0, .again⟩) plain,
        .clientWrite 6 .closes (.closes ⟨0, .again⟩)] t ∧
    Undisturbed 1 s t := by
  have hrun : ∀ s, play serverInit (asks 1 5) = .ok s → ∃ t,
      Run (Guarded Step fun s e => subject s e ≠ some 1) s
        [.accept 6 true (some 2), .clientRead 6 (.goes .helloWrite true) (.closes ⟨0, .again⟩) plain,
        .clientWrite 6 .closes (.closes ⟨0, .again⟩)] t := by
    intro s hs
    obtain rfl := Except.ok.inj hs
    exact ⟨_, .cons ⟨by decide, rfl⟩ (.cons ⟨by decide, rfl⟩ (.single ⟨by decide, rfl⟩))⟩
  obtain ⟨t, ht⟩ := hrun _ rfl
  exact ⟨_, t, _, rfl, rfl, rfl, ht,
    undisturbed_run (reachable_play (asks 1 5) rfl) ht⟩

end System

end SocksProxy.ServerIsolation
