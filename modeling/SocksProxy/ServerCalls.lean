import SocksProxy.ServerSteps

/-!
What the calls of the main thread leave alone: it starts workers, but does not
touch those that run, and it makes calls on top of those it has begun. Only the
selector begins with the notifications.
-/
namespace SocksProxy.ServerCalls

open Kernel Request Ledgers ServerState ServerSteps
open ConnState (FdInterest OP_NOOP OP_READ OP_WRITE)

variable {s t u : Server} {a fd i n : ℕ} {o : Socks5} {k : Answers} {e : Errno}
variable {r : Except Halt Server}

/-- Between `s` and `t` the main thread has only begun something. -/
structure Extends (s t : Server) : Prop where
  workers : ∃ ws, t.workers = s.workers ++ ws ∧ ∀ w ∈ ws, w.state = .resolving
  stack : ∃ fs, t.stack = fs ++ s.stack ∧ .notifications ∉ fs

theorem Extends.refl (s : Server) : Extends s s :=
  ⟨⟨[], (List.append_nil _).symm, by simp⟩, ⟨[], rfl, by simp⟩⟩

theorem Extends.trans (h : Extends s t) (h' : Extends t u) : Extends s u := by
  obtain ⟨ws, hws, hnew⟩ := h.workers
  obtain ⟨ws', hws', hnew'⟩ := h'.workers
  obtain ⟨fs, hfs, hcalls⟩ := h.stack
  obtain ⟨fs', hfs', hcalls'⟩ := h'.stack
  refine ⟨⟨ws ++ ws', by rw [hws', hws, List.append_assoc], ?_⟩,
    ⟨fs' ++ fs, by rw [hfs', hfs, List.append_assoc], ?_⟩⟩
  · intro w hw
    rcases List.mem_append.mp hw with hw | hw
    · exact hnew w hw
    · exact hnew' w hw
  · intro hmem
    rcases List.mem_append.mp hmem with hmem | hmem
    · exact hcalls' hmem
    · exact hcalls hmem

/-- Neither the workers nor the stack have changed. -/
theorem extends_same (hworkers : t.workers = s.workers) (hstack : t.stack = s.stack) :
    Extends s t :=
  ⟨⟨[], by rw [hworkers, List.append_nil], by simp⟩, ⟨[], hstack, by simp⟩⟩

theorem extends_push {fs : List Frame} (hcalls : Frame.notifications ∉ fs) :
    Extends s (s.push fs) :=
  ⟨⟨[], (List.append_nil _).symm, by simp⟩, ⟨fs, rfl, hcalls⟩⟩

/-- When `r` is a state, nothing but that was done. -/
def Extending (s : Server) (r : Except Halt Server) : Prop := ∀ t, r = .ok t → Extends s t

theorem extending_error {h : Halt} : Extending s (.error h) := by
  intro _ heq
  cases heq

theorem extending_ok (h : Extends s t) : Extending s (.ok t) := by
  intro u heq
  rw [← Except.ok.inj heq]
  exact h

theorem Extending.after (h' : Extending t r) (h : Extends s t) : Extending s r :=
  fun u heq => h.trans (h' u heq)

theorem Extending.map {g : Server → Server} (h : Extending s r) (hg : ∀ t, Extends t (g t)) :
    Extending s (r.map g) := by
  cases r with
  | error e => exact extending_error
  | ok t => exact extending_ok ((h t rfl).trans (hg t))

theorem Extending.bind {g : Server → Except Halt Server} (h : Extending s r)
    (hg : ∀ t, Extending t (g t)) : Extending s (r.bind g) := by
  cases r with
  | error e => exact extending_error
  | ok t => exact (hg t).after (h t rfl)

theorem owned_extends {f : Socks5 → Except Halt Server} (h : ∀ o, Extending s (f o)) :
    Extending s (s.owned a f) := by
  unfold Server.owned
  split
  next o _ =>
    split
    next => exact extending_error
    next => exact h o
  next => exact extending_error

section Close

theorem sysClose_extends : Extending s (sysClose s fd) := by
  unfold sysClose
  split
  next => exact extending_error
  next => exact extending_ok (extends_same rfl rfl)

theorem socks5Release_extends : Extending s (socks5Release s a) := by
  unfold socks5Release
  split
  next => exact extending_error
  next =>
    split
    next => exact extending_error
    next => exact extending_ok (extends_same rfl rfl)
    next => exact extending_ok (extends_same rfl rfl)

theorem ownerRelease_extends : Extending s (ownerRelease s a) :=
  owned_extends fun _ => socks5Release_extends.after (extends_same rfl rfl)

theorem socks5Cancel_extends : Extending s (socks5Cancel s a) := by
  unfold socks5Cancel
  split
  next => exact extending_error
  next => exact owned_extends fun _ => extending_ok (extends_same rfl rfl)

theorem socksv5PoolRemove_extends : Extending s (socksv5PoolRemove s a) := by
  unfold socksv5PoolRemove
  split
  next =>
    split
    next => exact extending_ok (extends_same rfl rfl)
    next => exact extending_ok (Extends.refl s)
  next => exact extending_error

theorem handleClose_extends {it : Item} : Extending s (handleClose s fd it) := by
  unfold handleClose
  split
  next a _ _ =>
    refine owned_extends fun o => socksv5PoolRemove_extends.after (Extends.trans (t := s.set a
      (if o.clientFd = some fd then { o with clientRegistered := false } else o)) ?_ ?_)
    · exact extends_same rfl rfl
    · exact extends_push (by simp)
  next => exact owned_extends fun _ => extending_ok (extends_same rfl rfl)
  next =>
    refine extending_ok ?_
    cases it.data <;> exact extends_same rfl rfl
  next => exact extending_error

theorem selectorUnregisterFd_extends : Extending s (selectorUnregisterFd s fd) := by
  unfold selectorUnregisterFd
  split
  next => exact extending_ok (Extends.refl s)
  next it _ =>
    refine handleClose_extends.after ⟨⟨[], (List.append_nil _).symm, by simp⟩, ?_⟩
    exact ⟨[.clear fd it.data], rfl, by simp⟩

theorem socks5ConnectionClose_extends : Extending s (socks5ConnectionClose s a) := by
  refine owned_extends fun o => ?_
  split
  next => exact extending_ok (Extends.refl s)
  next =>
    refine extending_ok (Extends.trans (t := s.set a { o with closing := true }) ?_ ?_)
    · exact extends_same rfl rfl
    · exact extends_push (by simp)

theorem clientClose_extends : Extending s (clientClose s a) := by
  refine owned_extends fun o => ?_
  split
  next => exact extending_ok (Extends.refl s)
  next fd _ =>
    split
    next =>
      refine selectorUnregisterFd_extends.after
        (Extends.trans (t := s.set a { o with clientRegistered := false }) ?_ ?_)
      · exact extends_same rfl rfl
      · exact extends_push (by simp)
    next => exact extending_ok (extends_push (by simp))

theorem clientCloseFd_extends : Extending s (clientCloseFd s a fd) :=
  owned_extends fun _ => sysClose_extends.map fun _ => extends_same rfl rfl

theorem originClose_extends : Extending s (originClose s a) := by
  refine owned_extends fun o => ?_
  split
  next fd _ _ =>
    refine selectorUnregisterFd_extends.after
      (Extends.trans (t := s.set a { o with originRegistered := false }) ?_ ?_)
    · exact extends_same rfl rfl
    · exact extends_push (by simp)
  next => exact extending_ok (extends_push (by simp))

theorem originCloseFd_extends : Extending s (originCloseFd s a) := by
  refine owned_extends fun o => ?_
  split
  next => exact extending_ok (Extends.refl s)
  next => exact sysClose_extends.map fun _ => extends_same rfl rfl

end Close

section Connect

theorem selectorSetInterest_extends (s : Server) (fd : Option ℕ) (i : FdInterest) :
    Extends s (selectorSetInterest s fd i) := by
  cases fd <;> exact extends_same rfl rfl

/-- A state is entered, and an interest set. -/
theorem interest_extends (o : Socks5) (fd : Option ℕ) (i : FdInterest) :
    Extending s (.ok (selectorSetInterest (s.set a o) fd i)) :=
  extending_ok (Extends.trans (t := s.set a o) (extends_same rfl rfl)
    (selectorSetInterest_extends _ fd i))

/-- What an attempt, or a series of them, leaves alone. -/
def Attempting (s : Server) (r : Except Halt (Status × Server)) : Prop :=
  ∀ p, r = .ok p → Extends s p.2

theorem attempting_failed {g : Server → Server} (e : Errno) (hg : ∀ t, Extends t (g t))
    (h : Extends s t) : Attempting s ((sysClose t fd).map fun u => (.failed e, g u)) := by
  intro p hp
  cases hclose : sysClose t fd with
  | error e =>
    rw [hclose] at hp
    cases hp
  | ok u =>
    rw [hclose] at hp
    rw [← Except.ok.inj hp]
    exact (h.trans (sysClose_extends u hclose)).trans (hg u)

theorem selectorRegister_extends {handler : Handler} {interest : FdInterest}
    {data owner : Option ℕ} (h : selectorRegister s fd handler interest data owner = some t) :
    Extends s t := by
  unfold selectorRegister at h
  split at h
  next => cases h
  next =>
    rw [← Option.some.inj h]
    exact extends_same rfl rfl

theorem registerOriginConnect_extends (d : Dial) :
    Attempting s (registerOriginConnect s a d) := by
  unfold registerOriginConnect
  split
  next => exact fun _ hp => by cases hp
  next o _ =>
    split
    next =>
      intro p hp
      rw [← Except.ok.inj hp]
      exact Extends.refl s
    next fd _ =>
      have hopen : Extends s (sysOpen s fd (some o.serial) .origin) := extends_same rfl rfl
      split
      next => exact fun _ hp => by cases hp
      next =>
        dsimp only
        split
        next => exact attempting_failed _ Extends.refl hopen
        next =>
          split
          next => exact attempting_failed _ Extends.refl hopen
          next =>
            split
            next =>
              exact attempting_failed _ (fun u => extends_same (t := u.set a
                { o with originFd := none }) rfl rfl) hopen
            next t ht =>
              intro p hp
              rw [← Except.ok.inj hp]
              refine (hopen.trans (Extends.trans (t := (sysOpen s fd (some o.serial) .origin).set a
                { o with originFd := some fd }) ?_ (selectorRegister_extends ht))).trans ?_
              · exact extends_same rfl rfl
              · exact extends_same rfl rfl

/-- By induction over the addresses that are left. -/
theorem resolvedLoop_extends (l : List AddrInfo) (n : ℕ) (lastError : Errno) (s : Server) :
    Attempting s (resolvedLoop a k n lastError l s) := by
  induction l generalizing n lastError s with
  | nil =>
    intro p hp
    rw [← Except.ok.inj hp]
    exact Extends.refl s
  | cons ai rest ih =>
    rw [resolvedLoop]
    split
    next => exact fun _ hp => by cases hp
    next o _ =>
      have hnext : Extends s (s.set a { o with dnsNext := rest }) := extends_same rfl rfl
      dsimp only
      split
      next =>
        have htry := registerOriginConnect_extends (s := s.set a { o with dnsNext := rest })
          (a := a) (k.attempt n)
        split
        next e t heq =>
          exact fun p hp => (hnext.trans (htry _ heq)).trans (ih (n + 1) e t p hp)
        next => exact fun p hp => hnext.trans (htry p hp)
      next => exact fun p hp => hnext.trans (ih n lastError _ p hp)

theorem startResolvedConnect_extends (o : Socks5) :
    Attempting s (startResolvedConnect s a o k) := by
  unfold startResolvedConnect
  split
  next =>
    intro p hp
    rw [← Except.ok.inj hp]
    exact Extends.refl s
  next => exact resolvedLoop_extends _ _ _ s

theorem Attempting.bind {q : Except Halt (Status × Server)}
    {g : Status × Server → Except Halt Server} (h : Attempting s q)
    (hg : ∀ p, Extending p.2 (g p)) : Extending s (q.bind g) := by
  cases q with
  | error e => exact extending_error
  | ok p => exact (hg p).after (h p rfl)

theorem connectDone_extends (status : Status) : Extending s (connectDone a k status s) := by
  refine owned_extends fun o => ?_
  split
  next => exact interest_extends _ _ _
  next =>
    split
    next => exact interest_extends _ _ _
    next =>
      refine extending_ok (Extends.trans (t := s.set a { o with current := .error }) ?_ ?_)
      · exact extends_same rfl rfl
      · exact extends_push (by simp)

theorem connectToOrigin_extends : Extending s (connectToOrigin s a k) := by
  refine owned_extends fun o => ?_
  split
  next => exact (registerOriginConnect_extends _).bind fun p => connectDone_extends p.1
  next =>
    split
    next =>
      split
      next => exact connectDone_extends _
      next =>
        split
        next => exact (startResolvedConnect_extends o).bind fun p => connectDone_extends p.1
        next =>
          split
          next => exact connectDone_extends _
          next => exact extending_ok (extends_push (by simp))
    next => exact connectDone_extends _

theorem resolveStart_extends : Extending s (resolveStart s a) := by
  unfold resolveStart
  split
  next => exact extending_error
  next =>
    refine owned_extends fun o => extending_ok (Extends.trans (t := s.set a { o with
      dnsPending := true, dnsError := 0, dnsResult := none, dnsNext := [] }) ?_ ?_)
    · exact extends_same rfl rfl
    · exact extends_push (by simp)

/-- The one call that starts a worker. -/
theorem resolveSpawn_extends : Extending s (resolveSpawn s a k) := by
  refine owned_extends fun o => ?_
  have href : Extends s (s.set a { o with references := o.references + 1 }) :=
    extends_same rfl rfl
  split
  next fd _ _ =>
    refine (connectDone_extends .inProgress).after ⟨⟨[_], rfl, ?_⟩, ⟨[], rfl, by simp⟩⟩
    simp
  next =>
    exact (socks5Release_extends.after href).map fun t => extends_push (by simp)
  next => exact extending_error
  next => exact extending_error

theorem resolveFailed_extends : Extending s (resolveFailed s a e k) := by
  unfold resolveFailed
  split
  next => exact extending_error
  next => exact owned_extends fun _ => (connectDone_extends _).after (extends_same rfl rfl)

theorem originConnectReply_extends : Extending s (originConnectReply a k s) := by
  refine owned_extends fun o => ?_
  split
  next => exact interest_extends _ _ _
  next => exact interest_extends _ _ _

theorem originDrop_extends : Extending s (originDrop s a k) := by
  refine originCloseFd_extends.bind fun t => owned_extends fun o => ?_
  split
  next =>
    refine (startResolvedConnect_extends o).bind fun p => ?_
    split
    next => exact extending_ok (Extends.refl p.2)
    next => exact originConnectReply_extends
  next => exact originConnectReply_extends

end Connect

section Handlers

theorem relayFlush_extends (s : Server) (fd : Option ℕ) (f : Flush) :
    Extends s (relayFlush s fd f).2 := by
  obtain ⟨bytes, writes, heq, -⟩ := relayFlush_spec s fd f
  rw [heq]
  exact extends_same rfl rfl

theorem relayUpdateInterests_extends (o : Socks5) (client origin : FdInterest) :
    Extends s (relayUpdateInterests s o client origin) :=
  (selectorSetInterest_extends s _ _).trans (selectorSetInterest_extends _ _ _)

theorem relayHandler_extends (fd : Option ℕ) (relay : Relays) :
    Extending s (relayHandler s a o fd relay) := by
  cases relay with
  | closes f => exact extending_ok ((relayFlush_extends s fd f).trans (extends_push (by simp)))
  | continues f client origin =>
    have hflush := relayFlush_extends s fd f
    simp only [relayHandler]
    generalize relayFlush s fd f = r at hflush ⊢
    obtain ⟨open', t⟩ := r
    cases open' with
    | true => exact extending_ok (hflush.trans (relayUpdateInterests_extends _ _ _))
    | false => exact extending_ok (hflush.trans (extends_push (by simp)))

theorem socksv5Read_extends (x : Reads) : Extending s (socksv5Read s a o k x) := by
  cases x with
  | again => exact extending_ok (selectorSetInterest_extends _ _ _)
  | closes => exact extending_ok (extends_push (by simp))
  | goes st pending =>
    rw [socksv5Read]
    split
    next => exact extending_error
    next =>
      split
      next => exact interest_extends _ _ _
      next => exact extending_error
  | dials atyp =>
    rw [socksv5Read]
    split
    next => exact connectToOrigin_extends.after (extends_same rfl rfl)
    next => exact extending_error

theorem socksv5Write_extends (x : Writes) : Extending s (socksv5Write s a o x) := by
  cases x with
  | again => exact extending_ok (selectorSetInterest_extends _ _ _)
  | closes => exact extending_ok (extends_push (by simp))
  | goes st pending =>
    rw [socksv5Write]
    split
    next => exact extending_error
    next =>
      split
      next => exact interest_extends _ _ _
      next => exact extending_error
  | starts client origin =>
    rw [socksv5Write]
    split
    next =>
      refine extending_ok (Extends.trans (t := s.set a
        { o with current := .relay, relayStarted := true }) ?_ (relayUpdateInterests_extends _ _ _))
      exact extends_same rfl rfl
    next => exact extending_error

theorem originConnectWriteHandler_extends (error : Status) :
    Extending s (originConnectWriteHandler s fd a o error k) := by
  unfold originConnectWriteHandler
  split
  next => exact originConnectReply_extends.after (selectorSetInterest_extends _ _ _)
  next =>
    split
    next =>
      refine selectorUnregisterFd_extends.after
        (Extends.trans (t := s.set a { o with originRegistered := false }) ?_ ?_)
      · exact extends_same rfl rfl
      · exact extends_push (by simp)
    next => exact extending_ok (extends_push (by simp))

theorem callHandler_extends {handler : Handler} {op : FdInterest → Bool}
    {f : ℕ → Socks5 → Except Halt Server} (h : ∀ a o, Extending s (f a o)) :
    Extending s (callHandler s fd handler op f) := by
  unfold callHandler
  split
  next => exact extending_error
  next a _ => exact owned_extends (h a)

end Handlers

section Main

theorem jobCleanup_extends : Extending s (jobCleanup s) := by
  unfold jobCleanup
  split
  next => exact extending_error
  next => exact socks5Release_extends.map fun _ => extends_same rfl rfl

theorem poolForceShutdown_extends : Extending s (poolForceShutdown s) := by
  unfold poolForceShutdown
  split
  next => exact extending_ok (Extends.refl s)
  next => exact socks5Cancel_extends.after (extends_push (by simp))

theorem forceCheck_extends : Extending s (forceCheck s a) := by
  unfold forceCheck
  split
  next => exact socksv5PoolRemove_extends
  next => exact extending_ok (Extends.refl s)

theorem selectorDestroy_extends : Extending s (selectorDestroy s i) := by
  unfold selectorDestroy
  split
  next => exact selectorUnregisterFd_extends.after (extends_push (by simp))
  next => exact extending_ok (extends_push (by simp))

theorem destroyJobs_extends : Extending s (destroyJobs s) := by
  unfold destroyJobs
  split
  next => exact extending_ok (extends_push (by simp))
  next =>
    refine socks5Release_extends.map fun t => ?_
    exact ⟨⟨[], (List.append_nil _).symm, by simp⟩, ⟨[.destroyJobs], rfl, by simp⟩⟩

/-- The frame of the notifications is the one that puts itself back. -/
theorem runFrame_extends {f : Frame} (hf : f ≠ .notifications) :
    Extending s (runFrame s k f) := by
  cases f with
  | connectionClose a => exact socks5ConnectionClose_extends
  | cancel a => exact socks5Cancel_extends
  | clientClose a => exact clientClose_extends
  | clientCloseFd a fd => exact clientCloseFd_extends
  | originClose a => exact originClose_extends
  | originCloseFd a => exact originCloseFd_extends
  | release a => exact ownerRelease_extends
  | clear fd data => exact extending_ok (extends_same rfl rfl)
  | resolveStart a => exact resolveStart_extends
  | resolveSpawn a => exact resolveSpawn_extends
  | resolveFailed a e => exact resolveFailed_extends
  | originDrop a => exact originDrop_extends
  | close fd => exact sysClose_extends
  | notifications => exact absurd rfl hf
  | cleanup => exact jobCleanup_extends
  | force => exact poolForceShutdown_extends
  | forceCheck a => exact forceCheck_extends
  | destroy i => exact selectorDestroy_extends
  | destroyJobs => exact destroyJobs_extends
  | ended => exact extending_error

theorem socksv5BlockDone_extends (j : BlockingJob) : Extending s (socksv5BlockDone s j k) := by
  unfold socksv5BlockDone
  split
  next => exact extending_error
  next => exact owned_extends fun _ => connectToOrigin_extends.after (extends_same rfl rfl)

/-- It goes on with its loop, but of the workers this holds too. -/
theorem handleBlockNotifications_workers (h : handleBlockNotifications s k = .ok t) :
    ∃ ws, t.workers = s.workers ++ ws ∧ ∀ w ∈ ws, w.state = .resolving := by
  unfold handleBlockNotifications at h
  split at h
  next =>
    rw [← Except.ok.inj h]
    exact (Extends.refl s).workers
  next j _ _ =>
    dsimp only at h
    split at h
    next => exact (socksv5BlockDone_extends j t h).workers
    next =>
      rw [← Except.ok.inj h]
      exact (Extends.refl s).workers

theorem accept_extends {nio : Bool} {state : Option ℕ} :
    Extending s (socksv5PassiveAccept s fd nio state) := by
  unfold socksv5PassiveAccept
  split
  next => exact extending_error
  next =>
    dsimp only
    split
    next a =>
      split
      next => exact extending_error
      next =>
        split
        next =>
          refine Extending.bind ?_ fun t => sysClose_extends
          exact ownerRelease_extends.after (extends_same rfl rfl)
        next t ht =>
          refine extending_ok (Extends.trans (t := t) ?_ (extends_same rfl rfl))
          refine Extends.trans ?_ (selectorRegister_extends ht)
          exact extends_same rfl rfl
    next => exact sysClose_extends.after (extends_same rfl rfl)

theorem otherOpen_extends {state : Option ℕ} {interest : FdInterest} :
    Extending s (otherOpen s fd state interest) := by
  unfold otherOpen
  split
  next => exact extending_error
  next =>
    dsimp only
    split
    next => exact sysClose_extends.after (extends_same rfl rfl)
    next t ht =>
      refine extending_ok (Extends.trans (t := t) ?_ (extends_same rfl rfl))
      refine Extends.trans ?_ (selectorRegister_extends ht)
      exact extends_same rfl rfl

theorem otherClose_extends : Extending s (otherClose s fd) := by
  unfold otherClose
  split
  next =>
    split
    next => exact selectorUnregisterFd_extends.after (extends_push (by simp))
    next => exact extending_error
  next => exact extending_error

/-- What the idle main thread begins, the notifications apart. -/
theorem begins_extends {x : Event} (hx : x ≠ .notifications) : Extending s (begins s x) := by
  cases x with
  | accept fd nio state => exact accept_extends
  | clientRead fd r relay k =>
    refine callHandler_extends fun a o => ?_
    split
    next => exact relayHandler_extends _ relay
    next => exact socksv5Read_extends r
  | clientWrite fd w relay =>
    refine callHandler_extends fun a o => ?_
    split
    next => exact relayHandler_extends _ relay
    next => exact socksv5Write_extends w
  | originRead fd relay => exact callHandler_extends fun _ _ => relayHandler_extends _ relay
  | originWrite fd error relay k =>
    refine callHandler_extends fun a o => ?_
    split
    next => exact relayHandler_extends _ relay
    next => exact originConnectWriteHandler_extends error
  | notifications => exact absurd rfl hx
  | forceShutdown => exact extending_ok (extends_push (by simp))
  | destroy => exact extending_ok (extends_push (by simp))
  | otherOpen fd state i => exact otherOpen_extends
  | otherClose fd => exact otherClose_extends
  | run k => exact extending_error
  | worker i w => exact extending_error

/-- Whatever the main thread does, it only starts workers. -/
theorem main_workers {x : Event} (h : Step s x t) (hx : ∀ i k, x ≠ .worker i k) :
    ∃ ws, t.workers = s.workers ++ ws ∧ ∀ w ∈ ws, w.state = .resolving := by
  have hbegun : ∀ x : Event, x ≠ .notifications →
      (if s.stack = [] then begins s x else .error .unreal) = .ok t →
      ∃ ws, t.workers = s.workers ++ ws ∧ ∀ w ∈ ws, w.state = .resolving := by
    intro x hx hbegun
    split at hbegun
    next => exact (begins_extends hx t hbegun).workers
    next => cases hbegun
  have hok : step s x = .ok t := h
  cases x with
  | run k =>
    rw [step] at hok
    split at hok
    next => cases hok
    next f fs hstack =>
      by_cases hf : f = .notifications
      · subst hf
        exact handleBlockNotifications_workers (s := { s with stack := fs }) hok
      · exact (runFrame_extends hf t hok).workers
  | worker i k => exact absurd rfl (hx i k)
  | notifications =>
    by_cases hidle : s.stack = []
    · have hpush : step s .notifications = .ok (s.push [.notifications]) := if_pos hidle
      rw [← Except.ok.inj (hpush.symm.trans hok)]
      exact (Extends.refl s).workers
    · have hbusy : step s .notifications = .error .unreal := if_neg hidle
      rw [hbusy] at hok
      cases hok
  | accept | clientRead | clientWrite | originRead | originWrite | forceShutdown | destroy
  | otherOpen | otherClose => exact hbegun _ (by simp) hok

end Main

end SocksProxy.ServerCalls
