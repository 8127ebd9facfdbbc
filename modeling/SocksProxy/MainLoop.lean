import SocksProxy.ServerIsolation
import SocksProxy.ServerShutdown

/-!
main: the two listeners, the loop over selector_select, and what the signals make of
it. One signal stops the listeners and lets the clients finish, a second one closes
them; whatever ends the loop, main lets go of the selector and of its sockets.
-/
namespace SocksProxy.MainLoop

open Kernel Ledgers ServerState ServerSteps ServerSockets ServerEntries ServerPool ServerParts
open ServerStages
open ServerHandlers ServerRuns ServerLocks ServerOwners ServerWork ServerShutdown
open ServerIsolation Runs
open ConnState (FdInterest OP_READ)

variable {s t : Server} {b : Bottom} {d : Doing} {fd : ℕ} {e : Event}

section Main

/-- Where main is. The places from `poolShutdown` on are after `finally`. -/
inductive Place
  | head
  | stopMonitor
  | check
  | stopAgain
  | force
  | test
  | select
  | notify
  | poolShutdown
  | destroy
  | closeListener
  | closeMonitor
  | returned
  deriving DecidableEq

/-- Why main leaves: `err_msg` is set alone, or a selector_status; the loop is broken
by the second signal, or when the last client is gone. -/
inductive Exit
  | message
  | status
  | forced
  | drained
  deriving DecidableEq

/-- What main returns. -/
def Exit.ret : Exit → ℕ
  | .message => 1
  | .status => 2
  | .forced => 0
  | .drained => 0

/-- `listener` and `monitor` are server and mng_server, `none` for -1; `signals` is
shutdown_signals. `passive` and `monPassive` are the sockets that main has opened for the
handlers socksv5 and mon, whatever has become of the variables since. -/
structure Main where
  server : Server
  signals : ℕ
  listener : Option ℕ
  monitor : Option ℕ
  passive : Option ℕ
  monPassive : Option ℕ
  draining : Bool
  place : Place
  exit : Option Exit

/-- The answers to the calls before the loop, in their order. -/
structure Setup where
  socket : Option ℕ
  bind : Bool
  listen : Bool
  sigaction : Bool
  setNio : Bool
  selectorInit : Bool
  selectorNew : Bool
  mngSocket : Option ℕ
  mngBind : Bool
  mngListen : Bool
  mngSetNio : Bool

/-- goto finally before the loop. -/
def gotoFinally (s : Server) (listener monitor : Option ℕ) (place : Place) (x : Exit) : Main where
  server := s
  signals := 0
  listener := listener
  monitor := monitor
  passive := listener
  monPassive := monitor
  draining := false
  place := place
  exit := some x

/-- main up to its loop. Without a selector there is no pool to shut down. -/
def setup (k : Setup) : Except Halt Main :=
  match k.socket with
  | none => .ok (gotoFinally serverInit none none .closeListener .message)
  | some fd =>
    let s := sysOpen serverInit fd none .client
    if (k.bind && k.listen && k.sigaction && k.setNio && k.selectorInit && k.selectorNew) = false
    then .ok (gotoFinally s (some fd) none .closeListener .message)
    else
      match selectorRegister s fd .other OP_READ none none with
      | none => .ok (gotoFinally s (some fd) none .poolShutdown .status)
      | some s =>
        match k.mngSocket with
        | none => .ok (gotoFinally s (some fd) none .poolShutdown .message)
        | some mng =>
          if (s.fds mng).isSome then .error .unreal
          else
            let u := sysOpen s mng none .client
            if (k.mngBind && k.mngListen && k.mngSetNio) = false then
              .ok (gotoFinally u (some fd) (some mng) .poolShutdown .message)
            else
              match selectorRegister u mng .other OP_READ none none with
              | none => .ok (gotoFinally u (some fd) (some mng) .poolShutdown .status)
              | some v =>
                .ok
                  { server := v, signals := 0, listener := some fd, monitor := some mng
                    passive := some fd, monPassive := some mng
                    draining := false, place := .head, exit := none }

/-- stop_accepting, up to its calls; the variable is -1 when they have returned. -/
def stopAccepting (s : Server) : Option ℕ → Except Halt Server
  | none => .ok s
  | some fd => step s (.otherClose fd)

/-- close(fd) at the end of main. -/
def closeFd (s : Server) : Option ℕ → Except Halt Server
  | none => .ok s
  | some fd => sysClose s fd

/-- What main does next when no call of it is under way. -/
def advance (m : Main) : Except Halt Main :=
  match m.place with
  | .head =>
    if 0 < m.signals ∧ m.draining = false then
      (stopAccepting m.server m.listener).map fun s =>
        { m with server := s, listener := none, place := .stopMonitor }
    else .ok { m with place := .check }
  | .stopMonitor =>
    (stopAccepting m.server m.monitor).map fun s =>
      { m with server := s, monitor := none, draining := true, place := .check }
  | .check =>
    if 1 < m.signals then
      (stopAccepting m.server m.listener).map fun s =>
        { m with server := s, listener := none, place := .stopAgain }
    else .ok { m with place := .test }
  | .stopAgain =>
    (stopAccepting m.server m.monitor).map fun s =>
      { m with server := s, monitor := none, place := .force }
  | .force =>
    (step m.server .forceShutdown).map fun s =>
      { m with server := s, place := .poolShutdown, exit := some .forced }
  | .test =>
    if m.draining = true ∧ m.server.poolSize = 0 then
      .ok { m with place := .poolShutdown, exit := some .drained }
    else .ok { m with place := .select }
  | .select => .error .unreal
  | .notify => .ok { m with place := .head }
  | .poolShutdown =>
    (step m.server .forceShutdown).map fun s => { m with server := s, place := .destroy }
  | .destroy =>
    (step m.server .destroy).map fun s => { m with server := s, place := .closeListener }
  | .closeListener =>
    (closeFd m.server m.listener).map fun s =>
      { m with server := s, listener := none, place := .closeMonitor }
  | .closeMonitor =>
    (closeFd m.server m.monitor).map fun s =>
      { m with server := s, monitor := none, place := .returned }
  | .returned => .error .unreal

/-- The table has the entry of the passive socket `fd`, which alone has no data; it is
dispatched when it is armed. -/
def ready (s : Server) (fd : Option ℕ) : Bool :=
  fd.any fun fd => (s.items fd).any fun it =>
    it.handler = .other && it.data = none && it.interest.read

/-- The steps of the server that may be taken: handlers while main is in
selector_select, clients and monitoring connections through the entries of the passive
sockets; calls and workers always. -/
def allowed (m : Main) : Event → Bool
  | .accept _ _ _ => m.place = .select && ready m.server m.passive
  | .otherOpen _ state _ => m.place = .select && ready m.server m.monPassive && state.isSome
  | .otherClose fd => m.place = .select && (m.server.items fd).any fun it => it.data.isSome
  | .notifications | .forceShutdown | .destroy => false
  | .run _ | .worker _ _ => true
  | _ => m.place = .select

/-- A signal is delivered, main goes on, selector_select has dispatched the ready
descriptors or failed, or the server takes a step. -/
inductive Input
  | signal
  | go
  | selects (ok : Bool)
  | server (e : Event)

/-- sigterm_handler counts to two; a later signal changes nothing. -/
def mainStep (m : Main) : Input → Except Halt Main
  | .signal => if m.signals < 2 then .ok { m with signals := m.signals + 1 } else .error .unreal
  | .go =>
    if m.server.stack = [] ∨ m.server.stack = [.ended] then advance m else .error .unreal
  | .selects ok =>
    if m.place = .select ∧ m.server.stack = [] then
      if ok then
        (step m.server .notifications).map fun s => { m with server := s, place := .notify }
      else .ok { m with place := .poolShutdown, exit := some .status }
    else .error .unreal
  | .server e =>
    if allowed m e then (step m.server e).map fun s => { m with server := s }
    else .error .unreal

/-- `m` goes to `n` by `i`. -/
def MainStep (m : Main) (i : Input) (n : Main) : Prop := mainStep m i = .ok n

/-- The states of main in some run of the program. -/
def MainReachable (m : Main) : Prop :=
  ∃ k m₀ is, setup k = .ok m₀ ∧ Run MainStep m₀ is m

theorem map_ok {m : Main} {r : Except Halt Server} {g : Server → Main} (h : r.map g = .ok m) :
    ∃ t, r = .ok t ∧ g t = m := by
  cases r with
  | error x => cases h
  | ok t => exact ⟨t, rfl, Except.ok.inj h⟩

/-- What main does by `i`. -/
inductive Takes (m : Main) : Input → Main → Prop
  | signal (hlt : m.signals < 2) : Takes m .signal { m with signals := m.signals + 1 }
  | go {n : Main} (hrest : m.server.stack = [] ∨ m.server.stack = [.ended])
      (hadvance : advance m = .ok n) : Takes m .go n
  | selected {t : Server} (hplace : m.place = .select) (hidle : m.server.stack = [])
      (hstep : Step m.server .notifications t) :
      Takes m (.selects true) { m with server := t, place := .notify }
  | failed (hplace : m.place = .select) (hidle : m.server.stack = []) :
      Takes m (.selects false) { m with place := .poolShutdown, exit := some .status }
  | server {e : Event} {t : Server} (ha : allowed m e = true) (hstep : Step m.server e t) :
      Takes m (.server e) { m with server := t }

theorem mainStep_takes {m n : Main} {i : Input} (h : MainStep m i n) : Takes m i n := by
  have h' : mainStep m i = .ok n := h
  cases i with
  | signal =>
    simp only [mainStep] at h'
    split at h'
    next hlt =>
      obtain rfl := Except.ok.inj h'
      exact .signal hlt
    next => cases h'
  | go =>
    simp only [mainStep] at h'
    split at h'
    next hrest => exact .go hrest h'
    next => cases h'
  | selects ok =>
    simp only [mainStep] at h'
    split at h'
    next hif =>
      cases ok with
      | true =>
        obtain ⟨t, ht, rfl⟩ := map_ok h'
        exact .selected hif.1 hif.2 ht
      | false =>
        obtain rfl := Except.ok.inj h'
        exact .failed hif.1 hif.2
    next => cases h'
  | server e =>
    simp only [mainStep] at h'
    split at h'
    next ha =>
      obtain ⟨t, ht, rfl⟩ := map_ok h'
      exact .server ha ht
    next => cases h'

theorem server_takes {m : Main} (ha : allowed m e = true) (hstep : Step m.server e t) :
    MainStep m (.server e) { m with server := t } := by
  simp only [MainStep, mainStep, ha, if_true, show step m.server e = .ok t from hstep, Except.map]

end Main

section Sockets

/-- A socket is opened that is no connection's. -/
theorem open_ok (h : Ok s .nothing .idle) (hfd : s.fds fd = none) :
    Ok (sysOpen s fd none .client) .nothing .idle := by
  have hparts : Parts none s s.jobs s.jobs [] := h.ground.parts
  let sk : Socket := { owner := none, side := .client, n := s.books.sockets.issued.length }
  have hself : Function.update s.fds fd (some sk) fd = some sk := Function.update_self _ _ _
  have hopened : SocketsOk (some fd) s.heap (Function.update s.fds fd (some sk))
      (s.books.sockets.issue sk) := hparts.sockets.opens hfd rfl
  have hopen : Parts none (sysOpen s fd none .client) s.jobs s.jobs [] :=
    ⟨hparts.refs, hopened.forget hself rfl, hparts.results, hparts.lookups,
      hparts.entries_open hfd sk, hparts.pool, hparts.gone⟩
  have hgood := back_good (t := sysOpen s fd none .client) h hopen rfl ⟨rfl, rfl, rfl⟩
  obtain ⟨d, b, hok⟩ := hgood
  exact idle_of_empty hok h.ground.stack

/-- It is registered. -/
theorem register_ok (h : Ok s .nothing .idle) (hfd : s.fds fd = none)
    (hr : selectorRegister (sysOpen s fd none .client) fd .other OP_READ none none = some t) :
    Ok t .nothing .idle := by
  have hparts : Parts none s s.jobs s.jobs [] := h.ground.parts
  obtain ⟨hopen, hcalm, hheap⟩ := hparts.other_open hfd hr
  obtain ⟨d, b, hok⟩ := back_good h hopen hheap hcalm
  exact idle_of_empty hok (hcalm.stack.trans h.ground.stack)

/-- main closes a socket after selector_destroy. -/
theorem close_ended (h : Ok s .nothing .ended)
    (hopen : ∃ sk, s.fds fd = some sk ∧ sk.owner = none) :
    ∃ t, sysClose s fd = .ok t ∧ Ok t .nothing .ended ∧ t.jobs = s.jobs ∧ t.stack = s.stack := by
  obtain ⟨sk, hsk, howner⟩ := hopen
  have hitems : ∀ e, s.items e = none := h.ground.footing
  obtain ⟨t, ht, hparts, hheap, hcalm⟩ := h.ground.parts.other_close hsk howner (hitems fd)
  have htitems : t.items = s.items := by
    rw [sysClose_eq hsk] at ht
    rw [← Except.ok.inj ht]
  have hjobs : t.jobs = s.jobs := hcalm.jobs
  refine ⟨t, ht, ⟨⟨?_, hcalm.stack.trans h.ground.stack, h.ground.clearing_nodup, ?_, ?_⟩,
    h.allowed, ?_⟩, hjobs, hcalm.stack⟩
  · rw [hjobs]
    exact hparts
  · intro a o ho hopened hsub
    rw [hheap] at ho
    rw [hcalm.workers, hjobs]
    exact h.ground.standing a o ho hopened hsub
  · intro e
    rw [htitems]
    exact hitems e
  · rintro a ⟨⟩

/-- main closes a socket without a selector. -/
theorem close_idle (h : Ok s .nothing .idle) (hitem : s.items fd = none)
    (hopen : ∃ sk, s.fds fd = some sk ∧ sk.owner = none) :
    ∃ t, sysClose s fd = .ok t ∧ Ok t .nothing .idle := by
  obtain ⟨sk, hsk, howner⟩ := hopen
  have hparts : Parts none s s.jobs s.jobs [] := h.ground.parts
  obtain ⟨t, ht, hparts', hheap, hcalm⟩ := hparts.other_close hsk howner hitem
  obtain ⟨d, b, hok⟩ := back_good h hparts' hheap hcalm
  exact ⟨t, ht, idle_of_empty hok (hcalm.stack.trans h.ground.stack)⟩

theorem sysClose_ok (h : sysClose s fd = .ok t) :
    t.fds = Function.update s.fds fd none ∧ t.items = s.items ∧ t.stack = s.stack ∧
      t.workers = s.workers ∧ t.accepted = s.accepted ∧ (NothingLeft s → NothingLeft t) := by
  unfold sysClose at h
  split at h
  next => cases h
  next =>
    obtain rfl := Except.ok.inj h
    refine ⟨rfl, rfl, rfl, rfl, rfl, fun hnothing => ?_⟩
    refine { hnothing with sockets := ?_ }
    intro e sk he
    rcases Ledger.update_eq_some he with ⟨-, he⟩ | ⟨-, he⟩
    · cases he
    · exact hnothing.sockets e sk he

end Sockets

section Stopped

/-- Nothing of a listener is at `fd`: what is open or registered there is a connection's. -/
structure Shut (s : Server) (fd : ℕ) : Prop where
  socket : ∀ sk, s.fds fd = some sk → sk.owner ≠ none
  entry : ∀ it, s.items fd = some it → it.handler ≠ .other

/-- stop_accepting has been called for `fd`: its two calls are under way, or have
returned. -/
inductive Stopped (s : Server) (fd : ℕ) : Prop
  | clears {data : Option ℕ} (hstack : s.stack = [.clear fd data, .close fd])
  | closes (hstack : s.stack = [.close fd]) (hitem : s.items fd = none)
  | shut (h : Shut s fd)

theorem shut_of_none (hfd : s.fds fd = none) (hitem : s.items fd = none) : Shut s fd where
  socket := by
    intro sk hsk
    cases hfd.symm.trans hsk
  entry := by
    intro it hit
    cases hitem.symm.trans hit

theorem Stopped.of_rest (h : Stopped s fd) (hrest : s.stack = [] ∨ s.stack = [.ended]) :
    Shut s fd := by
  cases h with
  | clears hstack | closes hstack =>
    rw [hstack] at hrest
    rcases hrest with hrest | hrest <;> simp at hrest
  | shut h => exact h

theorem shut_step (h : Sound s) (hstep : Step s e t)
    (hnot : ∀ state i, e ≠ .otherOpen fd state i) (hs : Shut s fd) : Shut t fd := by
  have hnew := step_noneNew h hstep hnot
  refine ⟨?_, ?_⟩
  · intro sk hsk howner
    exact hs.socket sk (hnew.socket sk hsk howner) howner
  · intro it hit hother
    obtain ⟨it', hit', hother'⟩ := hnew.entry it hit hother
    exact hs.entry it' hit' hother'

theorem shut_close {e : ℕ} (hclose : sysClose s e = .ok t) (hs : Shut s fd) : Shut t fd := by
  obtain ⟨hfds, hitems, -⟩ := sysClose_ok hclose
  refine ⟨?_, ?_⟩
  · intro sk hsk
    rw [hfds] at hsk
    rcases Ledger.update_eq_some hsk with ⟨-, hnew⟩ | ⟨-, hsk⟩
    · cases hnew
    · exact hs.socket sk hsk
  · intro it hit
    rw [hitems] at hit
    exact hs.entry it hit

/-- The calls of stop_accepting return one after the other, and nobody takes the number
for a listener. -/
theorem stopped_step (h : Sound s) (hstep : Step s e t)
    (hnot : ∀ state i, e ≠ .otherOpen fd state i) (hs : Stopped s fd) : Stopped t fd := by
  have hstep' : step s e = .ok t := hstep
  have hworker : ∀ {i k}, e = .worker i k → t.stack = s.stack ∧ t.items = s.items := by
    rintro i k rfl
    rw [step] at hstep'
    split at hstep'
    next => cases hstep'
    next w hi =>
      obtain ⟨d, b, hok⟩ := h
      obtain ⟨st, hmoved⟩ := dnsWorker_moved hok hi hstep'
      exact ⟨hmoved.stack, hmoved.items⟩
  cases hs with
  | shut hs => exact .shut (shut_step h hstep hnot hs)
  | clears hstack =>
    cases e with
    | run k =>
      simp only [step, hstack, runFrame] at hstep'
      obtain rfl := Except.ok.inj hstep'
      exact .closes rfl (Function.update_self _ _ _)
    | worker i k => exact .clears ((hworker rfl).1.trans hstack)
    | _ => simp [step, hstack] at hstep'
  | closes hstack hitem =>
    cases e with
    | run k =>
      simp only [step, hstack, runFrame] at hstep'
      obtain ⟨hfds, hitems, -⟩ := sysClose_ok hstep'
      refine .shut (shut_of_none ?_ ?_)
      · rw [hfds]
        exact Function.update_self _ _ _
      · rw [hitems]
        exact hitem
    | worker i k =>
      obtain ⟨hst, hitems⟩ := hworker rfl
      exact .closes (hst.trans hstack) (by rw [hitems]; exact hitem)
    | _ => simp [step, hstack] at hstep'

end Stopped

section Invariant

variable {m n : Main} {l : Option ℕ} {i : Input} {is : List Input}

def Main.holds (m : Main) (fd : ℕ) : Prop := m.listener = some fd ∨ m.monitor = some fd

def Main.opened (m : Main) (fd : ℕ) : Prop := m.passive = some fd ∨ m.monPassive = some fd

/-- main is in its loop. -/
def looping : Place → Bool
  | .poolShutdown | .destroy | .closeListener | .closeMonitor | .returned => false
  | _ => true

/-- selector_destroy has been called, if there was a selector. -/
def closing : Place → Bool
  | .closeListener | .closeMonitor | .returned => true
  | _ => false

theorem looping_of_closing {p : Place} (h : closing p = true) : looping p = false := by
  cases p <;> first | rfl | cases h

theorem closing_of_looping {p : Place} (h : looping p = true) : closing p = false := by
  cases p <;> first | rfl | cases h

/-- A listener is open and registered, and stop_accepting has not been called for it. -/
structure Listening (s : Server) (fd : ℕ) : Prop where
  aside : Aside s fd
  entry : ∃ it, s.items fd = some it ∧ it.handler = .other ∧ it.data = none

/-- No call of selector_destroy is under way. -/
def Quiet (s : Server) : Prop := ∀ f ∈ s.stack, ofDestroy f = false

/-- There was no selector. -/
structure Bare (s : Server) : Prop where
  nothing : NothingLeft s
  idle : s.stack = []
  workers : s.workers = []

/-- What has come about when main is there. -/
def Asked (m : Main) : Prop :=
  match m.place with
  | .stopMonitor => m.listener = none ∧ 0 < m.signals ∧ m.draining = false
  | .stopAgain => m.listener = none ∧ m.signals = 2
  | .force => m.listener = none ∧ m.monitor = none ∧ m.signals = 2
  | .poolShutdown | .destroy | .closeListener => True
  | .closeMonitor => m.listener = none
  | .returned => m.listener = none ∧ m.monitor = none
  | _ => m.draining = false → m.listener = m.passive ∧ m.monitor = m.monPassive

structure MainOk (m : Main) : Prop where
  sound : Sound m.server
  apart : ∀ fd, m.listener = some fd → m.monitor ≠ some fd
  signals_le : m.signals ≤ 2
  drained : m.draining = true → m.listener = none ∧ m.monitor = none ∧ 0 < m.signals
  asked : Asked m
  serving : looping m.place = true → m.exit = none ∧ ∀ fd, m.holds fd → Listening m.server fd
  leaving : looping m.place = false → m.exit ≠ none
  opened : ∀ fd, m.holds fd →
    (∃ sk, m.server.fds fd = some sk ∧ sk.owner = none) ∧ .close fd ∉ m.server.stack
  stopped : ∀ fd, m.opened fd → m.holds fd ∨ Stopped m.server fd
  quiet : closing m.place = false → Quiet m.server
  ended : closing m.place = true → Closing m.server ∨ Bare m.server
  forced : m.exit = some .forced → m.signals = 2
  finished : m.exit = some .drained → m.draining = true

theorem quiet_step (h : Sound s) (hstep : Step s e t) (hnot : e ≠ .destroy) (hs : Quiet s) :
    Quiet t := step_destroying h hstep hnot hs

theorem listening_step (h : Sound s) (hstep : Step s e t) (hnot : e ≠ .otherClose fd)
    (hquiet : Quiet s) (hl : Listening s fd) : Listening t fd := by
  have hdestroy : .destroy fd ∉ s.stack := fun hmem => absurd (hquiet _ hmem) (by simp [ofDestroy])
  obtain ⟨haside, hitems⟩ := step_aside h hstep hl.aside hnot hdestroy
  refine ⟨haside, ?_⟩
  rw [hitems]
  exact hl.entry

/-- What main needs while it is in its loop. -/
theorem looping_ok (hsound : Sound m.server)
    (hapart : ∀ fd, m.listener = some fd → m.monitor ≠ some fd) (hsignals : m.signals ≤ 2)
    (hdrained : m.draining = true → m.listener = none ∧ m.monitor = none ∧ 0 < m.signals)
    (hasked : Asked m) (hplace : looping m.place = true) (hexit : m.exit = none)
    (hlistening : ∀ fd, m.holds fd → Listening m.server fd) (hquiet : Quiet m.server)
    (hstopped : ∀ fd, m.opened fd → m.holds fd ∨ Stopped m.server fd) : MainOk m where
  sound := hsound
  apart := hapart
  signals_le := hsignals
  drained := hdrained
  asked := hasked
  serving := fun _ => ⟨hexit, hlistening⟩
  leaving := fun hnot => by rw [hplace] at hnot; cases hnot
  opened := fun fd hfd => ⟨(hlistening fd hfd).aside.socket, (hlistening fd hfd).aside.unclosed⟩
  stopped := hstopped
  quiet := fun _ => hquiet
  ended := fun hclosing => by
    rw [closing_of_looping hplace] at hclosing
    cases hclosing
  forced := fun hf => by rw [hexit] at hf; cases hf
  finished := fun hf => by rw [hexit] at hf; cases hf

theorem otherClose_stack (hstep : Step s (.otherClose fd) t) :
    ∃ data, t.stack = [.clear fd data, .close fd] := by
  have hstep' : step s (.otherClose fd) = .ok t := hstep
  simp only [step] at hstep'
  split at hstep'
  next hidle =>
    simp only [begins, otherClose] at hstep'
    split at hstep'
    next it hit =>
      split at hstep'
      next hother =>
        have hit' : (s.push [.close fd]).items fd = some it := hit
        rw [unregisterFd_eq hit', handleClose_other hother] at hstep'
        rw [← Except.ok.inj hstep']
        refine ⟨it.data, ?_⟩
        cases it.data <;> simp [monClose, Server.push, hidle]
      next => cases hstep'
    next => cases hstep'
  next => cases hstep'

/-- stop_accepting leaves the other listener alone. -/
theorem stop_ok (h : Sound s) (hquiet : Quiet s) (hstop : stopAccepting s l = .ok t) :
    Sound t ∧ Quiet t ∧ (∀ fd, l ≠ some fd → Listening s fd → Listening t fd) ∧
      ∀ fd, l = some fd ∨ Stopped s fd → Stopped t fd := by
  cases l with
  | none =>
    obtain rfl := Except.ok.inj hstop
    exact ⟨h, hquiet, fun _ _ hl => hl, fun fd hfd => hfd.resolve_left (by simp)⟩
  | some e =>
    have hstep : Step s (.otherClose e) t := hstop
    refine ⟨h.step hstep, quiet_step h hstep (by simp) hquiet, ?_, ?_⟩
    · intro fd hne hl
      refine listening_step h hstep ?_ hquiet hl
      intro heq
      exact hne (by rw [Event.otherClose.inj heq])
    · rintro fd (hfd | hfd)
      · obtain rfl := Option.some.inj hfd
        obtain ⟨data, hstack⟩ := otherClose_stack hstep
        exact .clears hstack
      · exact stopped_step h hstep (by simp) hfd

/-- A listener is not closed by a handler. -/
theorem not_closed (h : MainOk m) (ha : allowed m e = true) (hfd : m.holds fd) :
    e ≠ .otherClose fd := by
  rintro rfl
  simp only [allowed, Bool.and_eq_true, decide_eq_true_eq, Option.any_eq_true] at ha
  obtain ⟨hplace, it, hit, hdata⟩ := ha
  have hloop : looping m.place = true := by rw [hplace]; rfl
  obtain ⟨it', hit', -, hnone⟩ := ((h.serving hloop).2 fd hfd).entry
  obtain rfl := Option.some.inj (hit.symm.trans hit')
  rw [hnone] at hdata
  cases hdata

/-- A passive socket that is ready is registered. -/
theorem not_shut_of_ready (hready : ready s (some fd) = true) : ¬ Shut s fd := by
  intro hs
  simp only [ready, Option.any_some, Option.any_eq_true, Bool.and_eq_true,
    decide_eq_true_eq] at hready
  obtain ⟨it, hit, ⟨hother, -⟩, -⟩ := hready
  exact hs.entry it hit hother

theorem passive_of_ready {l : Option ℕ} (hready : ready s l = true) : ∃ fd, l = some fd := by
  cases l with
  | none => cases hready
  | some fd => exact ⟨fd, rfl⟩

/-- Who is let in comes through a listener that main still has. -/
theorem holds_of_ready (h : MainOk m) (hidle : m.server.stack = []) (hopened : m.opened fd)
    (hready : ready m.server (some fd) = true) : m.holds fd := by
  refine (h.stopped fd hopened).resolve_right fun hstopped => ?_
  exact not_shut_of_ready hready (hstopped.of_rest (Or.inl hidle))

/-- While main is in selector_select and has a listener left, it has both. -/
theorem holds_opened (h : MainOk m) (hplace : m.place = .select) (hheld : ∃ e, m.holds e)
    (hopened : m.opened fd) : m.holds fd := by
  have hdraining : m.draining = false := by
    rw [← Bool.not_eq_true]
    intro hd
    obtain ⟨hl, hm, -⟩ := h.drained hd
    obtain ⟨e, he | he⟩ := hheld
    · cases hl.symm.trans he
    · cases hm.symm.trans he
  have hasked := h.asked
  unfold Asked at hasked
  rw [hplace] at hasked
  obtain ⟨hl, hm⟩ := hasked hdraining
  unfold Main.holds
  rw [hl, hm]
  exact hopened

/-- A monitoring connection does not get the number of a listener. -/
theorem not_opened (h : MainOk m) (ha : allowed m e = true) (hstep : Step m.server e t)
    (hopened : m.opened fd) (hnot : ¬ m.holds fd) : ∀ state i, e ≠ .otherOpen fd state i := by
  rintro state i rfl
  simp only [allowed, Bool.and_eq_true, decide_eq_true_eq] at ha
  obtain ⟨⟨hplace, hready⟩, -⟩ := ha
  have hidle : m.server.stack = [] := by
    have hstep' : step m.server (.otherOpen fd state i) = .ok t := hstep
    simp only [step] at hstep'
    split at hstep'
    next hidle => exact hidle
    next => cases hstep'
  obtain ⟨e, he⟩ := passive_of_ready hready
  have hheld : m.holds e := holds_of_ready h hidle (Or.inr he) (he ▸ hready)
  exact hnot (holds_opened h hplace ⟨e, hheld⟩ hopened)

theorem server_ok (h : MainOk m) (ha : allowed m e = true) (hstep : Step m.server e t) :
    MainOk { m with server := t } := by
  have hdestroy : e ≠ .destroy := by
    rintro rfl
    cases ha
  refine
    { sound := h.sound.step hstep
      apart := h.apart
      signals_le := h.signals_le
      drained := h.drained
      asked := h.asked
      serving := ?_
      leaving := h.leaving
      opened := ?_
      stopped := ?_
      quiet := fun hplace => quiet_step h.sound hstep hdestroy (h.quiet hplace)
      ended := ?_
      forced := h.forced
      finished := h.finished }
  · intro hplace
    have hquiet : Quiet m.server := h.quiet (closing_of_looping hplace)
    refine ⟨(h.serving hplace).1, fun fd hfd => ?_⟩
    exact listening_step h.sound hstep (not_closed h ha hfd) hquiet ((h.serving hplace).2 fd hfd)
  · intro fd hfd
    obtain ⟨hopen, hunclosed⟩ := h.opened fd hfd
    obtain ⟨hfds, hunclosed'⟩ := step_open h.sound hstep hopen hunclosed (not_closed h ha hfd)
    refine ⟨?_, hunclosed'⟩
    show ∃ sk, t.fds fd = some sk ∧ sk.owner = none
    rw [hfds]
    exact hopen
  · intro fd hfd
    by_cases hheld : m.holds fd
    · exact Or.inl hheld
    · refine Or.inr (stopped_step h.sound hstep (not_opened h ha hstep hfd hheld) ?_)
      exact (h.stopped fd hfd).resolve_left hheld
  · intro hplace
    rcases h.ended hplace with hclosing | hbare
    · exact Or.inl (closing_step hclosing hstep)
    · -- nothing is there that could take a step
      exfalso
      have hstep' : step m.server e = .ok t := hstep
      have hnot : m.place ≠ .select := by
        intro hp
        rw [show ({ m with server := t } : Main).place = m.place from rfl, hp] at hplace
        cases hplace
      cases e with
      | run k => simp [step, hbare.idle] at hstep'
      | worker i w => simp [step, hbare.workers] at hstep'
      | _ => simp [allowed, hnot] at ha

theorem signal_ok (h : MainOk m) (hlt : m.signals < 2) :
    MainOk { m with signals := m.signals + 1 } := by
  have hasked : Asked { m with signals := m.signals + 1 } := by
    have hm := h.asked
    unfold Asked at hm ⊢
    cases hp : m.place <;> simp only [hp] at hm ⊢
    case stopMonitor => exact ⟨hm.1, Nat.succ_pos _, hm.2.2⟩
    case stopAgain | force => omega
    all_goals exact hm
  exact
    { sound := h.sound
      apart := h.apart
      signals_le := hlt
      drained := fun hd => ⟨(h.drained hd).1, (h.drained hd).2.1, Nat.succ_pos _⟩
      asked := hasked
      serving := h.serving
      leaving := h.leaving
      opened := h.opened
      stopped := h.stopped
      quiet := h.quiet
      ended := h.ended
      forced := fun hf => by
        have heq := h.forced hf
        omega
      finished := h.finished }

/-- What stop_accepting was called for is no longer main's. -/
theorem stopped_ok {n : Main} (h : MainOk m) (hopened : ∀ fd, n.opened fd → m.opened fd)
    (hstopped : ∀ fd, l = some fd ∨ Stopped m.server fd → Stopped n.server fd)
    (hheld : ∀ fd, m.holds fd → n.holds fd ∨ l = some fd) :
    ∀ fd, n.opened fd → n.holds fd ∨ Stopped n.server fd := by
  intro fd hfd
  rcases h.stopped fd (hopened fd hfd) with hm | hm
  · exact (hheld fd hm).imp_right fun hl => hstopped fd (Or.inl hl)
  · exact Or.inr (hstopped fd (Or.inr hm))

/-- main is in its loop, and no call is under way. -/
theorem advance_looping (h : MainOk m) (hplace : looping m.place = true)
    (hadvance : advance m = .ok n) (hn : looping n.place = true) : MainOk n := by
  obtain ⟨hexit, hlistening⟩ := h.serving hplace
  have hquiet : Quiet m.server := h.quiet (closing_of_looping hplace)
  have hasked := h.asked
  unfold Asked at hasked
  unfold advance at hadvance
  cases hm : m.place <;> simp only [hm] at hadvance hasked hplace
  case head =>
    split at hadvance
    next hif =>
      obtain ⟨t, ht, rfl⟩ := map_ok hadvance
      obtain ⟨hsound, hquiet', hlistens, hstopped⟩ := stop_ok h.sound hquiet ht
      refine looping_ok hsound (by simp) h.signals_le ?_ ⟨rfl, hif.1, hif.2⟩ rfl hexit ?_ hquiet' ?_
      · intro hd
        rw [hif.2] at hd
        cases hd
      · rintro fd (hfd | hfd)
        · cases hfd
        · exact hlistens fd (fun hl => h.apart fd hl hfd) (hlistening fd (Or.inr hfd))
      · refine stopped_ok h (fun _ hfd => hfd) hstopped ?_
        exact fun fd hfd => hfd.symm.imp_left Or.inr
    next =>
      obtain rfl := Except.ok.inj hadvance
      exact looping_ok h.sound h.apart h.signals_le h.drained hasked rfl hexit hlistening hquiet
        h.stopped
  case stopMonitor =>
    obtain ⟨t, ht, rfl⟩ := map_ok hadvance
    obtain ⟨hsound, hquiet', -, hstopped⟩ := stop_ok h.sound hquiet ht
    refine looping_ok hsound (by simp) h.signals_le (fun _ => ⟨hasked.1, rfl, hasked.2.1⟩)
      (fun hd => by cases hd) rfl hexit ?_ hquiet' ?_
    · rintro fd (hfd | hfd)
      · cases hasked.1.symm.trans hfd
      · cases hfd
    · refine stopped_ok h (fun _ hfd => hfd) hstopped ?_
      exact fun fd hfd => hfd.imp_left Or.inl
  case check =>
    split at hadvance
    next hif =>
      obtain ⟨t, ht, rfl⟩ := map_ok hadvance
      obtain ⟨hsound, hquiet', hlistens, hstopped⟩ := stop_ok h.sound hquiet ht
      have htwo : m.signals = 2 := Nat.le_antisymm h.signals_le hif
      refine looping_ok hsound (by simp) h.signals_le ?_ ⟨rfl, htwo⟩ rfl hexit ?_ hquiet' ?_
      · exact fun hd => ⟨rfl, (h.drained hd).2⟩
      · rintro fd (hfd | hfd)
        · cases hfd
        · exact hlistens fd (fun hl => h.apart fd hl hfd) (hlistening fd (Or.inr hfd))
      · refine stopped_ok h (fun _ hfd => hfd) hstopped ?_
        exact fun fd hfd => hfd.symm.imp_left Or.inr
    next =>
      obtain rfl := Except.ok.inj hadvance
      exact looping_ok h.sound h.apart h.signals_le h.drained hasked rfl hexit hlistening hquiet
        h.stopped
  case stopAgain =>
    obtain ⟨t, ht, rfl⟩ := map_ok hadvance
    obtain ⟨hsound, hquiet', -, hstopped⟩ := stop_ok h.sound hquiet ht
    refine looping_ok hsound (by simp) h.signals_le ?_ ⟨hasked.1, rfl, hasked.2⟩ rfl hexit ?_
      hquiet' ?_
    · exact fun hd => ⟨hasked.1, rfl, (h.drained hd).2.2⟩
    · rintro fd (hfd | hfd)
      · cases hasked.1.symm.trans hfd
      · cases hfd
    · refine stopped_ok h (fun _ hfd => hfd) hstopped ?_
      exact fun fd hfd => hfd.imp_left Or.inl
  case force =>
    obtain ⟨t, -, rfl⟩ := map_ok hadvance
    cases hn
  case test =>
    split at hadvance
    next =>
      obtain rfl := Except.ok.inj hadvance
      cases hn
    next =>
      obtain rfl := Except.ok.inj hadvance
      exact looping_ok h.sound h.apart h.signals_le h.drained hasked rfl hexit hlistening hquiet
        h.stopped
  case select => cases hadvance
  case notify =>
    obtain rfl := Except.ok.inj hadvance
    exact looping_ok h.sound h.apart h.signals_le h.drained hasked rfl hexit hlistening hquiet
      h.stopped
  all_goals cases hplace

/-- main has left its loop, and has not called selector_destroy. -/
theorem leaving_ok (h : MainOk m) (hsound : Sound n.server) (hlistener : n.listener = m.listener)
    (hmonitor : n.monitor = m.monitor) (hsignals : n.signals = m.signals)
    (hdraining : n.draining = m.draining)
    (hplace : n.place = .poolShutdown ∨ n.place = .destroy) (hexit : n.exit ≠ none)
    (hstopped : ∀ fd, n.opened fd → m.holds fd ∨ Stopped n.server fd)
    (hopened : ∀ fd, m.holds fd →
      (∃ sk, n.server.fds fd = some sk ∧ sk.owner = none) ∧ .close fd ∉ n.server.stack)
    (hquiet : Quiet n.server) (hforced : n.exit = some .forced → m.signals = 2)
    (hfinished : n.exit = some .drained → m.draining = true) : MainOk n where
  sound := hsound
  apart := by
    rw [hlistener, hmonitor]
    exact h.apart
  signals_le := by
    rw [hsignals]
    exact h.signals_le
  drained := by
    rw [hlistener, hmonitor, hsignals, hdraining]
    exact h.drained
  asked := by
    unfold Asked
    rcases hplace with hp | hp <;> rw [hp] <;> trivial
  serving := fun hloop => by rcases hplace with hp | hp <;> rw [hp] at hloop <;> cases hloop
  leaving := fun _ => hexit
  opened := by
    unfold Main.holds
    rw [hlistener, hmonitor]
    exact hopened
  stopped := by
    unfold Main.holds
    rw [hlistener, hmonitor]
    exact hstopped
  quiet := fun _ => hquiet
  ended := fun hclosing => by rcases hplace with hp | hp <;> rw [hp] at hclosing <;> cases hclosing
  forced := by
    rw [hsignals]
    exact hforced
  finished := by
    rw [hdraining]
    exact hfinished

theorem opened_step (h : MainOk m) (hstep : Step m.server e t) (hnot : ∀ fd, e ≠ .otherClose fd)
    (hfd : m.holds fd) : (∃ sk, t.fds fd = some sk ∧ sk.owner = none) ∧ .close fd ∉ t.stack := by
  obtain ⟨hopen, hunclosed⟩ := h.opened fd hfd
  obtain ⟨hfds, hunclosed'⟩ := step_open h.sound hstep hopen hunclosed (hnot fd)
  refine ⟨?_, hunclosed'⟩
  rw [hfds]
  exact hopen

theorem stopped_kept (h : MainOk m) (hstep : Step m.server e t)
    (hnot : ∀ fd state i, e ≠ .otherOpen fd state i) :
    ∀ fd, m.opened fd → m.holds fd ∨ Stopped t fd :=
  fun fd hfd => (h.stopped fd hfd).imp_right (stopped_step h.sound hstep (hnot fd))

/-- A socket of main is closed at its end. -/
theorem closeFd_ok (h : Closing s ∨ Bare s ∧ Sound s) (hrest : s.stack = [] ∨ s.stack = [.ended])
    (hopen : ∀ fd, l = some fd → ∃ sk, s.fds fd = some sk ∧ sk.owner = none) :
    ∃ t, closeFd s l = .ok t ∧ Sound t ∧ (Closing t ∨ Bare t) ∧ t.stack = s.stack ∧
      (∀ fd, l ≠ some fd → t.fds fd = s.fds fd) ∧
      ∀ fd, l = some fd ∨ Shut s fd → Shut t fd := by
  cases l with
  | none =>
    have hsame : ∀ fd, none = some fd ∨ Shut s fd → Shut s fd :=
      fun fd hfd => hfd.resolve_left (by simp)
    rcases h with hclosing | ⟨hbare, hsound⟩
    · exact ⟨s, rfl, hclosing.sound, Or.inl hclosing, rfl, fun _ _ => rfl, hsame⟩
    · exact ⟨s, rfl, hsound, Or.inr hbare, rfl, fun _ _ => rfl, hsame⟩
  | some fd =>
    have hother : ∀ t, sysClose s fd = .ok t → ∀ e, some fd ≠ some e → t.fds e = s.fds e := by
      intro t ht e hne
      rw [(sysClose_ok ht).1, Function.update_of_ne]
      rintro rfl
      exact hne rfl
    have hshut : s.items fd = none → ∀ t, sysClose s fd = .ok t →
        ∀ e, some fd = some e ∨ Shut s e → Shut t e := by
      rintro hitem t ht e (he | he)
      · obtain rfl := Option.some.inj he
        obtain ⟨hfds, hitems, -⟩ := sysClose_ok ht
        refine shut_of_none ?_ ?_
        · rw [hfds]
          exact Function.update_self _ _ _
        · rw [hitems]
          exact hitem
      · exact shut_close ht he
    rcases h with hclosing | ⟨hbare, hsound⟩
    · obtain ⟨d, b, hok⟩ := hclosing.sound
      have hstack : s.stack = [.ended] := by
        refine hrest.resolve_left fun hnil => ?_
        obtain ⟨f, hf, -⟩ := hclosing.destroying
        rw [hnil] at hf
        cases hf
      have hended : .ended ∈ s.stack := by
        rw [hstack]
        exact List.mem_singleton.mpr rfl
      obtain ⟨-, rfl, rfl⟩ := stack_ended hok hended
      obtain ⟨t, ht, hok', hjobs, hst⟩ := close_ended hok (hopen fd rfl)
      have hitem : s.items fd = none := hok.ground.footing fd
      refine ⟨t, ht, ⟨_, _, hok'⟩, Or.inl ⟨⟨_, _, hok'⟩, ?_, ?_⟩, hst, hother t ht,
        hshut hitem t ht⟩
      · exact ⟨.ended, by rw [hst]; exact hended, rfl⟩
      · intro _
        rw [hjobs]
        exact hclosing.emptied hended
    · obtain ⟨d, b, hok⟩ := hsound
      obtain ⟨t, ht, hok'⟩ :=
        close_idle (idle_of_empty hok hbare.idle) (hbare.nothing.items fd) (hopen fd rfl)
      obtain ⟨-, -, hst, hworkers, -, hnothing⟩ := sysClose_ok ht
      exact ⟨t, ht, ⟨_, _, hok'⟩, Or.inr ⟨hnothing hbare.nothing, hst.trans hbare.idle,
        hworkers.trans hbare.workers⟩, hst, hother t ht, hshut (hbare.nothing.items fd) t ht⟩

/-- main has called selector_destroy, or has none to call it for. -/
theorem closing_ok (h : MainOk m) (hexit : m.exit ≠ none) (hsound : Sound n.server)
    (hended : Closing n.server ∨ Bare n.server)
    (hlistener : n.listener = m.listener ∨ n.listener = none)
    (hmonitor : n.monitor = m.monitor ∨ n.monitor = none)
    (hsame : n.signals = m.signals ∧ n.draining = m.draining ∧ n.exit = m.exit)
    (hplace : closing n.place = true) (hasked : Asked n)
    (hopened : ∀ fd, n.holds fd →
      (∃ sk, n.server.fds fd = some sk ∧ sk.owner = none) ∧ .close fd ∉ n.server.stack)
    (hstopped : ∀ fd, n.opened fd → n.holds fd ∨ Stopped n.server fd) : MainOk n where
  sound := hsound
  apart := by
    intro fd hl hm
    rcases hlistener with heq | heq
    · rcases hmonitor with heq' | heq'
      · exact h.apart fd (heq.symm.trans hl) (heq'.symm.trans hm)
      · cases heq'.symm.trans hm
    · cases heq.symm.trans hl
  signals_le := by
    rw [hsame.1]
    exact h.signals_le
  drained := by
    rw [hsame.1, hsame.2.1]
    intro hd
    obtain ⟨hl, hm, hpos⟩ := h.drained hd
    exact ⟨hlistener.elim (·.trans hl) id, hmonitor.elim (·.trans hm) id, hpos⟩
  asked := hasked
  serving := fun hloop => by
    rw [looping_of_closing hplace] at hloop
    cases hloop
  leaving := fun _ => by
    rw [hsame.2.2]
    exact hexit
  opened := hopened
  stopped := hstopped
  quiet := fun hnot => by
    rw [hplace] at hnot
    cases hnot
  ended := fun _ => hended
  forced := by
    rw [hsame.2.2, hsame.1]
    exact h.forced
  finished := by
    rw [hsame.2.2, hsame.2.1]
    exact h.finished

/-- main goes on after its loop, or leaves it. -/
theorem advance_leaving (h : MainOk m) (hrest : m.server.stack = [] ∨ m.server.stack = [.ended])
    (hadvance : advance m = .ok n) (hn : looping n.place = false) : MainOk n := by
  have hasked := h.asked
  unfold Asked at hasked
  unfold advance at hadvance
  cases hm : m.place <;> simp only [hm] at hadvance hasked
  case head =>
    split at hadvance
    next => obtain ⟨t, -, rfl⟩ := map_ok hadvance; cases hn
    next => obtain rfl := Except.ok.inj hadvance; cases hn
  case stopMonitor => obtain ⟨t, -, rfl⟩ := map_ok hadvance; cases hn
  case check =>
    split at hadvance
    next => obtain ⟨t, -, rfl⟩ := map_ok hadvance; cases hn
    next => obtain rfl := Except.ok.inj hadvance; cases hn
  case stopAgain => obtain ⟨t, -, rfl⟩ := map_ok hadvance; cases hn
  case force =>
    obtain ⟨t, ht, rfl⟩ := map_ok hadvance
    have hstep : Step m.server .forceShutdown t := ht
    have hstopped := stopped_kept h hstep (by simp)
    exact leaving_ok h (h.sound.step hstep) rfl rfl rfl rfl (Or.inl rfl) (by simp)
      hstopped
      (fun fd hfd => opened_step h hstep (by simp) hfd)
      (quiet_step h.sound hstep (by simp) (h.quiet (by rw [hm]; rfl))) (fun _ => hasked.2.2)
      (by simp)
  case test =>
    split at hadvance
    next hif =>
      obtain rfl := Except.ok.inj hadvance
      exact leaving_ok h h.sound rfl rfl rfl rfl (Or.inl rfl) (by simp) h.stopped h.opened
        (h.quiet (by rw [hm]; rfl)) (by simp) (fun _ => hif.1)
    next => obtain rfl := Except.ok.inj hadvance; cases hn
  case select => cases hadvance
  case notify => obtain rfl := Except.ok.inj hadvance; cases hn
  case poolShutdown =>
    obtain ⟨t, ht, rfl⟩ := map_ok hadvance
    have hstep : Step m.server .forceShutdown t := ht
    have hstopped := stopped_kept h hstep (by simp)
    exact leaving_ok h (h.sound.step hstep) rfl rfl rfl rfl (Or.inr rfl)
      (h.leaving (by rw [hm]; rfl)) hstopped
      (fun fd hfd => opened_step h hstep (by simp) hfd)
      (quiet_step h.sound hstep (by simp) (h.quiet (by rw [hm]; rfl))) h.forced h.finished
  case destroy =>
    obtain ⟨t, ht, rfl⟩ := map_ok hadvance
    have hstep : Step m.server .destroy t := ht
    have hstopped := stopped_kept h hstep (by simp)
    exact closing_ok h (h.leaving (by rw [hm]; rfl)) (h.sound.step hstep)
      (Or.inl (closing_begin h.sound hstep)) (Or.inl rfl) (Or.inl rfl) ⟨rfl, rfl, rfl⟩ rfl trivial
      (fun fd hfd => opened_step h hstep (by simp) hfd)
      hstopped
  case closeListener =>
    obtain ⟨t, ht, rfl⟩ := map_ok hadvance
    have hended := (h.ended (by rw [hm]; rfl)).imp_right fun hbare => And.intro hbare h.sound
    obtain ⟨t', ht', hsound, hended', hstack, hfds, hshut⟩ :=
      closeFd_ok hended hrest fun fd hfd => (h.opened fd (Or.inl hfd)).1
    obtain rfl := Except.ok.inj (ht.symm.trans ht')
    refine closing_ok h (h.leaving (by rw [hm]; rfl)) hsound hended' (Or.inr rfl) (Or.inl rfl)
      ⟨rfl, rfl, rfl⟩ rfl rfl ?_ ?_
    · rintro fd (hfd | hfd)
      · cases hfd
      · obtain ⟨hopen, hunclosed⟩ := h.opened fd (Or.inr hfd)
        refine ⟨?_, by rw [hstack]; exact hunclosed⟩
        show ∃ sk, t.fds fd = some sk ∧ sk.owner = none
        rw [hfds fd fun hl => h.apart fd hl hfd]
        exact hopen
    · refine stopped_ok h (fun _ hfd => hfd) ?_ fun fd hfd => hfd.symm.imp_left Or.inr
      exact fun fd hfd => .shut (hshut fd (hfd.imp_right fun hs => hs.of_rest hrest))
  case closeMonitor =>
    obtain ⟨t, ht, rfl⟩ := map_ok hadvance
    have hended := (h.ended (by rw [hm]; rfl)).imp_right fun hbare => And.intro hbare h.sound
    obtain ⟨t', ht', hsound, hended', hstack, hfds, hshut⟩ :=
      closeFd_ok hended hrest fun fd hfd => (h.opened fd (Or.inr hfd)).1
    obtain rfl := Except.ok.inj (ht.symm.trans ht')
    refine closing_ok h (h.leaving (by rw [hm]; rfl)) hsound hended' (Or.inl rfl) (Or.inr rfl)
      ⟨rfl, rfl, rfl⟩ rfl ⟨hasked, rfl⟩ ?_ ?_
    · rintro fd (hfd | hfd)
      · obtain ⟨hopen, hunclosed⟩ := h.opened fd (Or.inl hfd)
        refine ⟨?_, by rw [hstack]; exact hunclosed⟩
        show ∃ sk, t.fds fd = some sk ∧ sk.owner = none
        rw [hfds fd (h.apart fd hfd)]
        exact hopen
      · cases hfd
    · refine stopped_ok h (fun _ hfd => hfd) ?_ fun fd hfd => hfd.imp_left Or.inl
      exact fun fd hfd => .shut (hshut fd (hfd.imp_right fun hs => hs.of_rest hrest))
  case returned => cases hadvance

theorem mainStep_ok (h : MainOk m) (hstep : MainStep m i n) : MainOk n := by
  cases mainStep_takes hstep with
  | signal hlt => exact signal_ok h hlt
  | go hrest hadvance =>
    cases hn : looping n.place with
    | false => exact advance_leaving h hrest hadvance hn
    | true =>
      refine advance_looping h ?_ hadvance hn
      cases hm : m.place <;> first | rfl | skip
      all_goals
        simp only [advance, hm] at hadvance
        first
          | (obtain ⟨t, -, rfl⟩ := map_ok hadvance; cases hn)
          | cases hadvance
  | selected hplace hidle ht =>
    obtain ⟨hexit, hlistening⟩ := h.serving (by rw [hplace]; rfl)
    have hquiet : Quiet m.server := h.quiet (by rw [hplace]; rfl)
    have hasked := h.asked
    unfold Asked at hasked
    rw [hplace] at hasked
    have hstopped := stopped_kept h ht (by simp)
    exact looping_ok (h.sound.step ht) h.apart h.signals_le h.drained hasked rfl hexit
      (fun fd hfd => listening_step h.sound ht (by simp) hquiet (hlistening fd hfd))
      (quiet_step h.sound ht (by simp) hquiet) hstopped
  | failed hplace hidle =>
    have hquiet : Quiet m.server := h.quiet (by rw [hplace]; rfl)
    exact leaving_ok h h.sound rfl rfl rfl rfl (Or.inl rfl) (by simp) h.stopped h.opened hquiet
      (by simp) (by simp)
  | server ha ht => exact server_ok h ha ht

theorem nothing_init : NothingLeft serverInit where
  workers := fun _ hw => by cases hw
  heap := fun _ => rfl
  items := fun _ => rfl
  sockets := fun _ _ hsk => by cases hsk
  pool := rfl
  current := rfl
  jobs := rfl
  states := List.Perm.refl _
  owners := List.Perm.refl _
  results := List.Perm.refl _
  registrations := List.Perm.refl _

/-- main has left before its loop. -/
theorem gotoFinally_ok {place : Place} {x : Exit} (hok : Ok s .nothing .idle) {monitor : Option ℕ}
    (hx : x = .message ∨ x = .status) (happart : ∀ fd, l = some fd → monitor ≠ some fd)
    (hplace : place = .poolShutdown ∨ place = .closeListener ∧ NothingLeft s ∧ s.workers = [])
    (hopened : ∀ fd, l = some fd ∨ monitor = some fd → ∃ sk, s.fds fd = some sk ∧ sk.owner = none) :
    MainOk (gotoFinally s l monitor place x) where
  sound := ⟨_, _, hok⟩
  apart := happart
  signals_le := Nat.zero_le _
  drained := fun hd => by cases hd
  asked := by rcases hplace with rfl | ⟨rfl, -⟩ <;> trivial
  serving := fun hloop => by rcases hplace with rfl | ⟨rfl, -⟩ <;> cases hloop
  leaving := fun _ => by simp [gotoFinally]
  opened := fun fd hfd => ⟨hopened fd hfd, by
    show .close fd ∉ s.stack
    rw [show s.stack = [] from hok.ground.stack]
    exact List.not_mem_nil⟩
  stopped := fun _ hfd => Or.inl hfd
  quiet := fun _ => by
    show Quiet s
    unfold Quiet
    rw [show s.stack = [] from hok.ground.stack]
    simp
  ended := fun hclosing => by
    rcases hplace with rfl | ⟨rfl, hnothing, hworkers⟩
    · cases hclosing
    · exact Or.inr ⟨hnothing, hok.ground.stack, hworkers⟩
  forced := fun hf => by rcases hx with rfl | rfl <;> cases hf
  finished := fun hf => by rcases hx with rfl | rfl <;> cases hf

theorem opened_self (s : Server) (fd : ℕ) :
    ∃ sk, (sysOpen s fd none .client).fds fd = some sk ∧ sk.owner = none :=
  ⟨_, Function.update_self _ _ _, rfl⟩

theorem opened_other {e : ℕ} (hne : e ≠ fd) : (sysOpen s fd none .client).fds e = s.fds e :=
  Function.update_of_ne hne _ _

/-- What selector_register has done for a listener. -/
theorem registered_listening (hstack : s.stack = [])
    (hr : selectorRegister (sysOpen s fd none .client) fd .other OP_READ none none = some t) :
    Listening t fd ∧ t.fds = (sysOpen s fd none .client).fds ∧ t.stack = [] ∧
      ∀ e, e ≠ fd → t.items e = s.items e := by
  unfold selectorRegister at hr
  split at hr
  next => cases hr
  next =>
    obtain rfl := Option.some.inj hr
    refine ⟨⟨⟨opened_self s fd, ?_, ?_⟩, ⟨_, Function.update_self _ _ _, rfl, rfl⟩⟩, rfl, hstack,
      ?_⟩
    · simp [sysOpen, Server.setItem, hstack]
    · simp [sysOpen, Server.setItem, hstack]
    · exact fun e hne => Function.update_of_ne hne _ _

/-- The second listener leaves the first one as it is. -/
theorem listening_beside {e : ℕ} (hstack : s.stack = []) (hne : e ≠ fd) (hl : Listening s e)
    (hr : selectorRegister (sysOpen s fd none .client) fd .other OP_READ none none = some t) :
    Listening t e := by
  obtain ⟨-, hfds, hstack', hitems⟩ := registered_listening hstack hr
  refine ⟨⟨?_, ?_, ?_⟩, ?_⟩
  · rw [hfds, opened_other hne]
    exact hl.aside.socket
  · rw [hstack']
    exact List.not_mem_nil
  · intro data
    rw [hstack']
    exact List.not_mem_nil
  · rw [hitems e hne]
    exact hl.entry

theorem setup_ok {k : Setup} (h : setup k = .ok m) : MainOk m := by
  have hinit : Ok serverInit .nothing .idle := init_ok
  unfold setup at h
  split at h
  next =>
    obtain rfl := Except.ok.inj h
    exact gotoFinally_ok hinit (Or.inl rfl) (by simp) (Or.inr ⟨rfl, nothing_init, rfl⟩) (by simp)
  next fd hsocket =>
    have hopen : Ok (sysOpen serverInit fd none .client) .nothing .idle := open_ok hinit rfl
    have hself := opened_self serverInit fd
    dsimp only at h
    split at h
    next =>
      obtain rfl := Except.ok.inj h
      refine gotoFinally_ok hopen (Or.inl rfl) (by simp) (Or.inr ⟨rfl, ?_, rfl⟩)
        (by simpa using hself)
      refine { nothing_init with sockets := ?_ }
      intro e sk he
      rcases Ledger.update_eq_some he with ⟨-, he⟩ | ⟨-, he⟩
      · rw [← Option.some.inj he]
      · cases he
    next =>
      split at h
      next =>
        obtain rfl := Except.ok.inj h
        exact gotoFinally_ok hopen (Or.inr rfl) (by simp) (Or.inl rfl) (by simpa using hself)
      next s hr =>
        have hok : Ok s .nothing .idle := register_ok hinit rfl hr
        obtain ⟨hlistening, hfds, hstack, -⟩ := registered_listening (s := serverInit) rfl hr
        have hopened : ∃ sk, s.fds fd = some sk ∧ sk.owner = none := hlistening.aside.socket
        split at h
        next =>
          obtain rfl := Except.ok.inj h
          exact gotoFinally_ok hok (Or.inl rfl) (by simp) (Or.inl rfl) (by simpa using hopened)
        next mng hmng =>
          split at h
          next => cases h
          next hfree =>
            have hfree' : s.fds mng = none := by simpa using hfree
            have hne : fd ≠ mng := by
              rintro rfl
              obtain ⟨sk, hsk, -⟩ := hopened
              cases hsk.symm.trans hfree'
            have hopen' : Ok (sysOpen s mng none .client) .nothing .idle := open_ok hok hfree'
            have hboth : ∀ e, some fd = some e ∨ some mng = some e →
                ∃ sk, (sysOpen s mng none .client).fds e = some sk ∧ sk.owner = none := by
              rintro e (he | he)
              · obtain rfl := Option.some.inj he
                rw [opened_other hne]
                exact hopened
              · obtain rfl := Option.some.inj he
                exact opened_self s mng
            have hapart : ∀ e, some fd = some e → some mng ≠ some e := by
              intro e he he'
              exact hne (Option.some.inj (he.trans he'.symm))
            split at h
            next =>
              obtain rfl := Except.ok.inj h
              exact gotoFinally_ok hopen' (Or.inl rfl) hapart (Or.inl rfl) hboth
            next =>
              split at h
              next =>
                obtain rfl := Except.ok.inj h
                exact gotoFinally_ok hopen' (Or.inr rfl) hapart (Or.inl rfl) hboth
              next v hr' =>
                obtain rfl := Except.ok.inj h
                obtain ⟨hmonitor, -, hstack', -⟩ := registered_listening hstack hr'
                refine looping_ok ⟨_, _, register_ok hok hfree' hr'⟩ hapart (Nat.zero_le _)
                  (fun hd => by cases hd) (fun _ => ⟨rfl, rfl⟩) rfl rfl ?_ ?_ fun _ he => Or.inl he
                · rintro e (he | he)
                  · obtain rfl := Option.some.inj he
                    exact listening_beside hstack hne hlistening hr'
                  · obtain rfl := Option.some.inj he
                    exact hmonitor
                · show Quiet v
                  unfold Quiet
                  rw [hstack']
                  simp

theorem reachable_mainOk (h : MainReachable m) : MainOk m := by
  obtain ⟨k, m₀, is, hsetup, hrun⟩ := h
  exact hrun.invariant (setup_ok hsetup) mainStep_ok

theorem setup_opened {k : Setup} (h : setup k = .ok m) (hfd : m.holds fd) : m.opened fd := by
  unfold setup at h
  dsimp only at h
  repeat' split at h
  all_goals
    first
      | (obtain rfl := Except.ok.inj h; exact hfd)
      | cases h

theorem mainStep_opened (hstep : MainStep m i n) (hfd : m.opened fd) : n.opened fd := by
  cases mainStep_takes hstep with
  | signal | selected | failed | server => exact hfd
  | go hrest hadvance =>
    unfold advance at hadvance
    cases hm : m.place <;> simp only [hm] at hadvance
    case head | check | test =>
      split at hadvance
      all_goals
        first
          | (obtain ⟨t, -, rfl⟩ := map_ok hadvance; exact hfd)
          | (obtain rfl := Except.ok.inj hadvance; exact hfd)
    case select | returned => cases hadvance
    case notify =>
      obtain rfl := Except.ok.inj hadvance
      exact hfd
    all_goals
      obtain ⟨t, -, rfl⟩ := map_ok hadvance
      exact hfd

theorem run_opened {k : Setup} {m₀ : Main} (hsetup : setup k = .ok m₀)
    (hrun : Run MainStep m₀ is m) (hfd : m₀.holds fd) : m.opened fd :=
  hrun.invariant (I := fun m => m.opened fd) (setup_opened hsetup hfd)
    fun hm hstep => mainStep_opened hstep hm

end Invariant

section Played

/-- A kernel that grants everything; 3 and 4 are the listeners. -/
def granted : Setup where
  socket := some 3
  bind := true
  listen := true
  sigaction := true
  setNio := true
  selectorInit := true
  selectorNew := true
  mngSocket := some 4
  mngBind := true
  mngListen := true
  mngSetNio := true

/-- main comes to its loop and plays `is`. -/
def plays (is : List Input) : Except Halt Main := (setup granted).bind fun m => is.foldlM mainStep m

theorem plays_run {m : Main} {is : List Input} (h : plays is = .ok m) :
    ∃ m₀, setup granted = .ok m₀ ∧ Run MainStep m₀ is m := by
  unfold plays at h
  cases hsetup : setup granted with
  | error x =>
    rw [hsetup] at h
    cases h
  | ok m₀ =>
    rw [hsetup] at h
    exact ⟨m₀, rfl, Run.of_foldlM_ok id h⟩

theorem reachable_plays {m : Main} {is : List Input} (h : plays is = .ok m) : MainReachable m := by
  obtain ⟨m₀, hsetup, hrun⟩ := plays_run h
  exact ⟨granted, m₀, is, hsetup, hrun⟩

theorem granted_holds {m : Main} (h : setup granted = .ok m) : m.holds 3 ∧ m.holds 4 := by
  obtain rfl := Except.ok.inj h
  exact ⟨Or.inl rfl, Or.inr rfl⟩

/-- main dispatches `es`; it is at the head of its loop before and after. -/
def dispatches (es : List Event) : List Input :=
  [.go, .go, .go] ++ es.map .server ++ [.selects true, .server (.run plain), .go]

/-- main stops both listeners. -/
def stops : List Input :=
  [.signal, .go, .server (.run plain), .server (.run plain), .go, .server (.run plain),
    .server (.run plain)]

end Played

section Returning

variable {m n : Main} {i : Input} {is : List Input}

/-- What selector_destroy may take. -/
def destroyWork : ℕ := 13 * FD_SIZE + 4

/-- What main has still to begin after its loop. -/
def budget : Place → ℕ
  | .poolShutdown => destroyWork + 5
  | .destroy => destroyWork + 3
  | .closeListener => 2
  | .closeMonitor => 1
  | _ => 0

/-- A bound on the steps that the program takes after the loop of main. -/
def mainWork (m : Main) : ℕ := 2 - m.signals + budget m.place + work m.server

theorem work_force (hidle : s.stack = []) : work (s.push [.force]) = work s + 1 := by
  simp [work, Server.push, hidle, jobsWork, unforced, frameWork, Server.draining, stackWork]
  omega

theorem work_destroy (hidle : s.stack = []) :
    work (s.push [.destroy 0]) = work s + destroyWork := by
  simp [work, Server.push, hidle, jobsWork, unforced, frameWork, Server.draining, stackWork,
    destroyWork]
  omega

theorem work_closeFd {l : Option ℕ} (h : closeFd s l = .ok t) : work t ≤ work s := by
  cases l with
  | none => rw [Except.ok.inj h]
  | some fd =>
    have hcosts : Costs True 0 s (sysClose s fd) := sysClose_costs
    exact (hcosts.1 t h).work_le

theorem begun_eq {f : Frame} (h : (if s.stack = [] then .ok (s.push [f]) else .error .unreal) =
    Except.ok (ε := Halt) t) : s.stack = [] ∧ t = s.push [f] := by
  split at h
  next hidle => exact ⟨hidle, (Except.ok.inj h).symm⟩
  next => cases h

/-- After its loop main only goes on, and never back. -/
theorem mainStep_pays (h : MainOk m ∧ looping m.place = false) (hstep : MainStep m i n) :
    mainWork n < mainWork m := by
  obtain ⟨hok, hleft⟩ := h
  unfold mainWork
  cases mainStep_takes hstep with
  | signal hlt =>
    show 2 - (m.signals + 1) + budget m.place + work m.server < _
    omega
  | go hrest hadvance =>
    unfold advance at hadvance
    cases hm : m.place <;> simp only [hm] at hadvance hleft
    case poolShutdown =>
      obtain ⟨t, ht, rfl⟩ := map_ok hadvance
      obtain ⟨hidle, rfl⟩ := begun_eq ht
      simp only [work_force hidle, budget]
      omega
    case destroy =>
      obtain ⟨t, ht, rfl⟩ := map_ok hadvance
      obtain ⟨hidle, rfl⟩ := begun_eq ht
      simp only [work_destroy hidle, budget]
      omega
    case closeListener =>
      obtain ⟨t, ht, rfl⟩ := map_ok hadvance
      have hle := work_closeFd ht
      simp only [budget]
      omega
    case closeMonitor =>
      obtain ⟨t, ht, rfl⟩ := map_ok hadvance
      have hle := work_closeFd ht
      simp only [budget]
      omega
    case returned => cases hadvance
    all_goals cases hleft
  | selected hplace | failed hplace =>
    rw [hplace] at hleft
    cases hleft
  | @server e t ha ht =>
    have hnot : m.place ≠ .select := by
      rintro hp
      rw [hp] at hleft
      cases hleft
    have hinternal : internal e = true := by
      cases e <;> first | rfl | simp [allowed, hnot] at ha
    have hpays := works_pays hok.sound ⟨hinternal, ht⟩
    show 2 - m.signals + budget m.place + work t < _
    omega

theorem mainStep_left (h : looping m.place = false) (hstep : MainStep m i n) :
    looping n.place = false := by
  cases mainStep_takes hstep with
  | signal | server => exact h
  | selected hplace | failed hplace =>
    rw [hplace] at h
    cases h
  | go hrest hadvance =>
    unfold advance at hadvance
    cases hm : m.place <;> simp only [hm] at hadvance h
    case returned => cases hadvance
    case poolShutdown | destroy | closeListener | closeMonitor =>
      obtain ⟨t, -, rfl⟩ := map_ok hadvance
      rfl
    all_goals cases h

theorem stop_goes {l : Option ℕ} (hidle : s.stack = [])
    (hl : ∀ fd, l = some fd → Listening s fd) : ∃ t, stopAccepting s l = .ok t := by
  cases l with
  | none => exact ⟨s, rfl⟩
  | some fd =>
    obtain ⟨it, hit, hhandler, -⟩ := (hl fd rfl).entry
    have hunregister : ∃ t, selectorUnregisterFd (s.push [.close fd]) fd = .ok t := by
      have hit' : (s.push [.close fd]).items fd = some it := hit
      rw [unregisterFd_eq hit', handleClose_other hhandler]
      exact ⟨_, rfl⟩
    simp only [stopAccepting, step, hidle, if_true, begins, otherClose, hit, hhandler]
    exact hunregister

/-- What main and its threads do by themselves: no signal is waited for, and neither
selector_select nor malloc is counted on to fail. -/
def proceeds : Input → Bool
  | .signal => false
  | .go => true
  | .selects ok => ok
  | .server e => internal e && allocates e

def MainGoes : Main → Input → Main → Prop := Guarded MainStep fun _ i => proceeds i = true

theorem goes_mainGoes (hgoes : Goes m.server e t) :
    MainGoes m (.server e) { m with server := t } := by
  obtain ⟨hallocates, hinternal, hstep⟩ := hgoes
  refine ⟨by simp [proceeds, hinternal, hallocates], server_takes ?_ hstep⟩
  cases e <;> first | rfl | cases hinternal

theorem mainRest_of_stuck (h : MainOk m) (hstuck : ∀ i n, ¬ MainGoes m i n) : AtRest m.server :=
  rest_of_stuck h.sound fun _ _ hgoes => hstuck _ _ (goes_mainGoes hgoes)

theorem idle_of_rest (h : MainOk m) (hrest : AtRest m.server) (hnot : closing m.place = false) :
    m.server.stack = [] := by
  refine hrest.main.resolve_right fun hended => ?_
  have hof := h.quiet hnot .ended (by rw [hended]; exact List.mem_singleton.mpr rfl)
  cases hof

theorem stop_of_looping (h : MainOk m) (hrest : AtRest m.server) (hloop : looping m.place = true)
    {l : Option ℕ} (hl : l = m.listener ∨ l = m.monitor) : ∃ t, stopAccepting m.server l = .ok t := by
  refine stop_goes (idle_of_rest h hrest (closing_of_looping hloop)) fun fd hfd => ?_
  refine (h.serving hloop).2 fd ?_
  rcases hl with rfl | rfl
  · exact Or.inl hfd
  · exact Or.inr hfd

theorem close_of_closing (h : MainOk m) (hrest : AtRest m.server) (hclosing : closing m.place = true)
    {l : Option ℕ} (hl : l = m.listener ∨ l = m.monitor) : ∃ t, closeFd m.server l = .ok t := by
  have hended := (h.ended hclosing).imp_right fun hbare => And.intro hbare h.sound
  have hopen : ∀ fd, l = some fd → ∃ sk, m.server.fds fd = some sk ∧ sk.owner = none := by
    intro fd hfd
    refine (h.opened fd ?_).1
    rcases hl with rfl | rfl
    · exact Or.inl hfd
    · exact Or.inr hfd
  obtain ⟨t, ht, -⟩ := closeFd_ok hended hrest.main hopen
  exact ⟨t, ht⟩

/-- At rest, and outside selector_select, main goes on by itself. -/
theorem advance_goes (h : MainOk m) (hrest : AtRest m.server) (hselect : m.place ≠ .select)
    (hplace : m.place ≠ .returned) : ∃ n, advance m = .ok n := by
  cases hm : m.place
  case select => exact absurd hm hselect
  case returned => exact absurd hm hplace
  case force | poolShutdown | destroy =>
    have hs := idle_of_rest h hrest (by rw [hm]; rfl)
    simp only [advance, hm, step, hs, if_true, begins, Except.map]
    exact ⟨_, rfl⟩
  case head =>
    by_cases hif : 0 < m.signals ∧ m.draining = false
    · obtain ⟨t, ht⟩ := stop_of_looping h hrest (by rw [hm]; rfl) (Or.inl rfl)
      exact ⟨_, by simp only [advance, hm, if_pos hif, ht, Except.map]; rfl⟩
    · exact ⟨_, by simp only [advance, hm, if_neg hif]; rfl⟩
  case stopMonitor =>
    obtain ⟨t, ht⟩ := stop_of_looping h hrest (by rw [hm]; rfl) (Or.inr rfl)
    exact ⟨_, by simp only [advance, hm, ht, Except.map]; rfl⟩
  case check =>
    by_cases hif : 1 < m.signals
    · obtain ⟨t, ht⟩ := stop_of_looping h hrest (by rw [hm]; rfl) (Or.inl rfl)
      exact ⟨_, by simp only [advance, hm, if_pos hif, ht, Except.map]; rfl⟩
    · exact ⟨_, by simp only [advance, hm, if_neg hif]; rfl⟩
  case stopAgain =>
    obtain ⟨t, ht⟩ := stop_of_looping h hrest (by rw [hm]; rfl) (Or.inr rfl)
    exact ⟨_, by simp only [advance, hm, ht, Except.map]; rfl⟩
  case test =>
    by_cases hif : m.draining = true ∧ m.server.poolSize = 0
    · exact ⟨_, by simp only [advance, hm, if_pos hif]; rfl⟩
    · exact ⟨_, by simp only [advance, hm, if_neg hif]; rfl⟩
  case notify => exact ⟨_, by simp only [advance, hm]; rfl⟩
  case closeListener =>
    obtain ⟨t, ht⟩ := close_of_closing h hrest (by rw [hm]; rfl) (Or.inl rfl)
    exact ⟨_, by simp only [advance, hm, ht, Except.map]; rfl⟩
  case closeMonitor =>
    obtain ⟨t, ht⟩ := close_of_closing h hrest (by rw [hm]; rfl) (Or.inr rfl)
    exact ⟨_, by simp only [advance, hm, ht, Except.map]; rfl⟩

/-- Before main has returned it can go on, or waits for a thread that can. -/
theorem main_goes (h : MainOk m) (hplace : m.place ≠ .returned) : ∃ i n, MainGoes m i n := by
  by_cases hthread : ∃ e t, Goes m.server e t
  · obtain ⟨e, t, hgoes⟩ := hthread
    exact ⟨_, _, goes_mainGoes hgoes⟩
  have hrest : AtRest m.server := rest_of_stuck h.sound fun e t hgoes => hthread ⟨e, t, hgoes⟩
  by_cases hselect : m.place = .select
  · -- selector_select returns, with nobody ready
    have hs := idle_of_rest h hrest (by rw [hselect]; rfl)
    refine ⟨.selects true, { m with server := m.server.push [.notifications], place := .notify },
      rfl, ?_⟩
    simp [MainStep, mainStep, hselect, hs, step, begins, Except.map]
  · obtain ⟨n, hn⟩ := advance_goes h hrest hselect hplace
    refine ⟨.go, n, rfl, ?_⟩
    simp only [MainStep, mainStep, hrest.main, if_true, hn]

/-- When nothing can go on, main has returned. -/
theorem returned_of_stuck (h : MainOk m) (hstuck : ∀ i n, ¬ MainGoes m i n) :
    m.place = .returned := by
  by_contra hplace
  obtain ⟨i, n, hgoes⟩ := main_goes h hplace
  exact hstuck i n hgoes

/-- What main leaves when it has returned and the workers have exited. -/
theorem nothing_of_stuck (h : MainOk m) (hstuck : ∀ i n, ¬ MainGoes m i n) :
    NothingLeft m.server := by
  have hplace := returned_of_stuck h hstuck
  rcases h.ended (by rw [hplace]; rfl) with hclosing | hbare
  · exact closing_stuck hclosing fun _ _ hgoes => hstuck _ _ (goes_mainGoes hgoes)
  · exact hbare.nothing

/-- The listeners are not open any more, nor is anything else under their numbers. -/
theorem unopened_of_stuck (h : MainOk m) (hstuck : ∀ i n, ¬ MainGoes m i n)
    (hopened : m.opened fd) : m.server.fds fd = none := by
  have hasked := h.asked
  unfold Asked at hasked
  rw [returned_of_stuck h hstuck] at hasked
  have hstopped : Stopped m.server fd := by
    refine (h.stopped fd hopened).resolve_left ?_
    rintro (hfd | hfd)
    · cases hasked.1.symm.trans hfd
    · cases hasked.2.symm.trans hfd
  have hshut : Shut m.server fd := hstopped.of_rest (mainRest_of_stuck h hstuck).main
  by_contra hsome
  obtain ⟨sk, hsk⟩ := Option.ne_none_iff_exists'.mp hsome
  exact hshut.socket sk hsk ((nothing_of_stuck h hstuck).sockets fd sk hsk)

theorem leaving_step (h : MainOk m ∧ looping m.place = false) (hstep : MainStep m i n) :
    MainOk n ∧ looping n.place = false := ⟨mainStep_ok h.1 hstep, mainStep_left h.2 hstep⟩

theorem runs_to_end (h : MainOk m) (hleft : looping m.place = false) :
    ∃ is n, Run MainStep m is n ∧ ∀ i u, ¬ MainStep n i u :=
  Run.exists_maximal (I := fun m => MainOk m ∧ looping m.place = false) ⟨h, hleft⟩ leaving_step
    mainStep_pays

/-- Whatever has ended the loop of main, the program then takes a bounded number of steps
in whatever order its threads run. When none can go on, main has returned, the listeners
that it had opened are closed, the workers have exited, and nothing of any connection is
left; main has returned 0 only when it was asked to stop. -/
theorem main_returns {k : Setup} {m₀ : Main} {js : List Input} (hsetup : setup k = .ok m₀)
    (hbefore : Run MainStep m₀ js m) (hleft : looping m.place = false)
    (hrun : Run MainStep m is n) :
    is.length + mainWork n ≤ mainWork m ∧
    ((∀ i u, ¬ MainGoes n i u) →
      n.place = .returned ∧ (∀ fd, m₀.holds fd → n.server.fds fd = none) ∧
      NothingLeft n.server ∧ ∃ x, n.exit = some x ∧ (x.ret = 0 → 0 < n.signals)) := by
  have hreach : MainReachable m := ⟨k, m₀, js, hsetup, hbefore⟩
  have hstart : MainOk m ∧ looping m.place = false := ⟨reachable_mainOk hreach, hleft⟩
  refine ⟨hrun.length_add_le hstart leaving_step mainStep_pays, ?_⟩
  intro hstuck
  obtain ⟨hok, hout⟩ := hrun.invariant hstart leaving_step
  have hopened : ∀ fd, m₀.holds fd → n.opened fd :=
    fun fd hfd => run_opened hsetup (hbefore.append hrun) hfd
  obtain ⟨x, hx⟩ := Option.ne_none_iff_exists'.mp (hok.leaving hout)
  refine ⟨returned_of_stuck hok hstuck, fun fd hfd => unopened_of_stuck hok hstuck (hopened fd hfd),
    nothing_of_stuck hok hstuck, x, hx, ?_⟩
  intro hret
  cases x with
  | message => cases hret
  | status => cases hret
  | forced =>
    have htwo := hok.forced hx
    omega
  | drained => exact (hok.drained (hok.finished hx)).2.2

/-- A second signal forces main out of its loop with a client connected. -/
theorem main_returns_forced : ∃ m is n,
    plays (dispatches [.accept 5 true (some 1)] ++ stops ++ [.signal, .go, .go, .go]) = .ok m ∧
    m.server.pool = [1] ∧ Run MainStep m is n ∧ n.place = .returned ∧ NothingLeft n.server ∧
    n.server.fds 3 = none ∧ n.server.fds 4 = none := by
  have hforced : ∃ m,
      plays (dispatches [.accept 5 true (some 1)] ++ stops ++ [.signal, .go, .go, .go]) = .ok m ∧
      m.server.pool = [1] ∧ looping m.place = false := ⟨_, rfl, rfl, rfl⟩
  obtain ⟨m, hm, hpool, hleft⟩ := hforced
  obtain ⟨m₀, hsetup, hbefore⟩ := plays_run hm
  obtain ⟨hthree, hfour⟩ := granted_holds hsetup
  obtain ⟨is, n, hrun, hstuck⟩ := runs_to_end (reachable_mainOk (reachable_plays hm)) hleft
  obtain ⟨hplace, hclosed, hnothing, -⟩ :=
    (main_returns hsetup hbefore hleft hrun).2 fun i u hgoes => hstuck i u hgoes.2
  exact ⟨m, is, n, hm, hpool, hrun, hplace, hnothing, hclosed 3 hthree, hclosed 4 hfour⟩

/-- No order of steps leaves main waiting for ever: where nothing can go on by itself,
main has returned and the workers have exited. -/
theorem main_never_stuck (h : MainReachable m) (hstuck : ∀ i n, ¬ MainGoes m i n) :
    m.place = .returned ∧ ∀ w ∈ m.server.workers, w.state = .exited :=
  ⟨returned_of_stuck (reachable_mainOk h) hstuck,
    (mainRest_of_stuck (reachable_mainOk h) hstuck).workers⟩

theorem main_never_stuck_granted : ∃ n, MainReachable n ∧ (∀ i u, ¬ MainGoes n i u) ∧
    n.place = .returned := by
  have hforced : ∃ m, plays (stops ++ [.signal, .go, .go, .go]) = .ok m ∧
      looping m.place = false := ⟨_, rfl, rfl⟩
  obtain ⟨m, hm, hleft⟩ := hforced
  have hreach := reachable_plays hm
  obtain ⟨is, n, hrun, hstuck⟩ := runs_to_end (reachable_mainOk hreach) hleft
  have hstuck' : ∀ i u, ¬ MainGoes n i u := fun i u hgoes => hstuck i u hgoes.2
  obtain ⟨k, m₀, js, hsetup, hjs⟩ := hreach
  have hn : MainReachable n := ⟨k, m₀, js ++ is, hsetup, hjs.append hrun⟩
  exact ⟨n, hn, hstuck', (main_never_stuck hn hstuck').1⟩

end Returning

section Draining

variable {m n : Main} {i : Input} {is : List Input} {k : ℕ}

/-- The counter of the pool does not come back to zero with a client in the pool. -/
theorem pool_of_size (h : Ok s .nothing .idle) (hsize : s.poolSize = 0) : s.pool = [] := by
  have hparts := h.ground.parts
  have hle : s.pool.length ≤ ITEMS_MAX_SIZE := pool_length hparts.pool hparts.entries
  have hzero : (UInt64.ofNat s.pool.length).toNat = 0 := by
    rw [← hparts.pool.size, hsize]
    rfl
  have hmod : s.pool.length % 2 ^ 64 = 0 := by
    rw [← UInt64.toNat_ofNat']
    exact hzero
  simp only [ITEMS_MAX_SIZE] at hle
  exact List.eq_nil_of_length_eq_zero (by omega)

/-- Between two dispatches every connection that is not released is in the pool. -/
theorem released_of_empty (h : Ok s .nothing .idle) (hpool : s.pool = []) {a : ℕ} {o : Socks5}
    (ho : s.heap a = some o) : o.released = true := by
  by_contra hopen
  rw [Bool.not_eq_true] at hopen
  have hstanding := h.ground.standing a o ho hopen (by simp [Doing.subject])
  have hmem : a ∈ s.pool :=
    (h.ground.parts.pool.mem_iff a).mpr ⟨o, ho, hstanding.clientRegistered⟩
  rw [hpool] at hmem
  cases hmem

/-- The loop is left for want of clients at its test only. -/
theorem drained_at (hstep : MainStep m i n) (hbefore : m.exit = none)
    (hexit : n.exit = some .drained) :
    (m.server.stack = [] ∨ m.server.stack = [.ended]) ∧ m.place = .test ∧ m.draining = true ∧
      m.server.poolSize = 0 := by
  cases mainStep_takes hstep with
  | signal | selected | server => cases hbefore.symm.trans hexit
  | failed => cases hexit
  | go hrest hadvance =>
    refine ⟨hrest, ?_⟩
    unfold advance at hadvance
    cases hm : m.place <;> simp only [hm] at hadvance
    case test =>
      split at hadvance
      next hif => exact ⟨rfl, hif⟩
      next =>
        obtain rfl := Except.ok.inj hadvance
        cases hbefore.symm.trans hexit
    case head | check =>
      split at hadvance
      next =>
        obtain ⟨t, -, rfl⟩ := map_ok hadvance
        cases hbefore.symm.trans hexit
      next =>
        obtain rfl := Except.ok.inj hadvance
        cases hbefore.symm.trans hexit
    case force =>
      obtain ⟨t, -, rfl⟩ := map_ok hadvance
      cases hexit
    case notify =>
      obtain rfl := Except.ok.inj hadvance
      cases hbefore.symm.trans hexit
    case select | returned => cases hadvance
    all_goals
      obtain ⟨t, -, rfl⟩ := map_ok hadvance
      cases hbefore.symm.trans hexit

/-- When the loop ends because no client is left, it was a signal that asked for it, the
pool is empty, as its counter says, and everything that any client was ever given has been
taken back: nobody is cut off. -/
theorem drained_torn_down (h : MainReachable m) (hstep : MainStep m i n) (hbefore : m.exit = none)
    (hexit : n.exit = some .drained) :
    0 < m.signals ∧ m.server.poolSize = 0 ∧ m.server.pool = [] ∧
      ∀ k < m.server.accepted, TornDown m.server k := by
  have hok := reachable_mainOk h
  obtain ⟨hrest, hplace, hdraining, hsize⟩ := drained_at hstep hbefore hexit
  have hstack : m.server.stack = [] := by
    refine hrest.resolve_right fun hended => ?_
    have hof := hok.quiet (by rw [hplace]; rfl) .ended
      (by rw [hended]; exact List.mem_singleton.mpr rfl)
    cases hof
  obtain ⟨d, b, hsound⟩ := hok.sound
  have hidle := idle_of_empty hsound hstack
  have hpool := pool_of_size hidle hsize
  refine ⟨(hok.drained hdraining).2.2, hsize, hpool, fun k hk => ?_⟩
  exact tornDown_of_ended hsound ⟨hk, fun a o ho _ => released_of_empty hidle hpool ho⟩

/-- A client hangs up, and one signal ends the loop. -/
theorem drained_torn_down_hung_up : ∃ m n,
    plays (dispatches [.accept 5 true (some 1)] ++ dispatches (hangsUp 5) ++ stops ++ [.go]) =
      .ok m ∧ MainStep m .go n ∧ n.exit = some .drained ∧ m.server.accepted = 1 ∧
    TornDown m.server 0 := by
  have hdrained : ∃ m n,
      plays (dispatches [.accept 5 true (some 1)] ++ dispatches (hangsUp 5) ++ stops ++ [.go]) =
        .ok m ∧ MainStep m .go n ∧ m.exit = none ∧ n.exit = some .drained ∧
        m.server.accepted = 1 := ⟨_, _, rfl, rfl, rfl, rfl, rfl⟩
  obtain ⟨m, n, hm, hstep, hbefore, hexit, haccepted⟩ := hdrained
  exact ⟨m, n, hm, hstep, hexit, haccepted,
    (drained_torn_down (reachable_plays hm) hstep hbefore hexit).2.2.2 0 (by omega)⟩

theorem stop_accepted {l : Option ℕ} (h : Sound s) (hstop : stopAccepting s l = .ok t) :
    t.accepted = s.accepted := by
  cases l with
  | none => rw [Except.ok.inj hstop]
  | some fd =>
    have hstep : Step s (.otherClose fd) t := hstop
    exact step_accepted h hstep rfl

theorem close_accepted {l : Option ℕ} (h : closeFd s l = .ok t) : t.accepted = s.accepted := by
  cases l with
  | none => rw [Except.ok.inj h]
  | some fd => exact (sysClose_ok h).2.2.2.2.1

/-- main itself accepts nobody. -/
theorem advance_accepted (h : MainOk m) (hadvance : advance m = .ok n) :
    n.server.accepted = m.server.accepted ∧ (m.draining = true → n.draining = true) := by
  unfold advance at hadvance
  cases hm : m.place <;> simp only [hm] at hadvance
  case head | check =>
    split at hadvance
    next =>
      obtain ⟨t, ht, rfl⟩ := map_ok hadvance
      exact ⟨stop_accepted h.sound ht, id⟩
    next =>
      obtain rfl := Except.ok.inj hadvance
      exact ⟨rfl, id⟩
  case stopMonitor =>
    obtain ⟨t, ht, rfl⟩ := map_ok hadvance
    exact ⟨stop_accepted h.sound ht, fun _ => rfl⟩
  case stopAgain =>
    obtain ⟨t, ht, rfl⟩ := map_ok hadvance
    exact ⟨stop_accepted h.sound ht, id⟩
  case force | poolShutdown =>
    obtain ⟨t, ht, rfl⟩ := map_ok hadvance
    have hstep : Step m.server .forceShutdown t := ht
    exact ⟨step_accepted h.sound hstep rfl, id⟩
  case destroy =>
    obtain ⟨t, ht, rfl⟩ := map_ok hadvance
    have hstep : Step m.server .destroy t := ht
    exact ⟨step_accepted h.sound hstep rfl, id⟩
  case test =>
    split at hadvance
    next =>
      obtain rfl := Except.ok.inj hadvance
      exact ⟨rfl, id⟩
    next =>
      obtain rfl := Except.ok.inj hadvance
      exact ⟨rfl, id⟩
  case notify =>
    obtain rfl := Except.ok.inj hadvance
    exact ⟨rfl, id⟩
  case closeListener | closeMonitor =>
    obtain ⟨t, ht, rfl⟩ := map_ok hadvance
    exact ⟨close_accepted ht, id⟩
  case select | returned => cases hadvance

/-- The server lets somebody in. -/
def admits : Event → Bool
  | .accept _ _ _ | .otherOpen _ _ _ => true
  | _ => false

/-- Without the entries of the passive sockets nobody is let in. -/
theorem not_admitted (h : MainOk m) (hd : m.draining = true) (he : admits e = true) :
    ¬ MainStep m (.server e) n := by
  intro hstep
  obtain ⟨hl, hm, -⟩ := h.drained hd
  have hnot : ∀ fd, ¬ m.holds fd := by
    rintro fd (hfd | hfd)
    · cases hl.symm.trans hfd
    · cases hm.symm.trans hfd
  have hunready : m.server.stack = [] → ∀ l, (∀ fd, l = some fd → m.opened fd) →
      ready m.server l ≠ true := by
    intro hidle l hopened hready
    obtain ⟨fd, rfl⟩ := passive_of_ready hready
    exact hnot fd (holds_of_ready h hidle (hopened fd rfl) hready)
  cases mainStep_takes hstep with
  | @server e t ha hstep' =>
    have hstep'' : step m.server e = .ok t := hstep'
    cases e with
    | accept fd nio state =>
      simp only [allowed, Bool.and_eq_true] at ha
      simp only [step] at hstep''
      split at hstep''
      next hidle => exact hunready hidle m.passive (fun fd hfd => Or.inl hfd) ha.2
      next => cases hstep''
    | otherOpen fd state i =>
      simp only [allowed, Bool.and_eq_true] at ha
      simp only [step] at hstep''
      split at hstep''
      next hidle => exact hunready hidle m.monPassive (fun fd hfd => Or.inr hfd) ha.1.2
      next => cases hstep''
    | _ => cases he

theorem draining_step (h : MainOk m) (hd : m.draining = true) (hstep : MainStep m i n) :
    n.draining = true ∧ n.server.accepted = m.server.accepted := by
  cases mainStep_takes hstep with
  | signal | failed => exact ⟨hd, rfl⟩
  | go hrest hadvance =>
    obtain ⟨haccepted, hdraining⟩ := advance_accepted h hadvance
    exact ⟨hdraining hd, haccepted⟩
  | selected hplace hidle ht => exact ⟨hd, step_accepted h.sound ht rfl⟩
  | @server e t ha ht =>
    refine ⟨hd, step_accepted h.sound ht ?_⟩
    cases e with
    | accept fd nio state => exact absurd hstep (not_admitted h hd rfl)
    | _ => rfl

/-- The handlers of the clients, with the calls they make and the workers. -/
def serves : Event → Bool
  | .clientRead _ _ _ _ | .clientWrite _ _ _ | .originRead _ _ | .originWrite _ _ _ _ => true
  | .run _ | .worker _ _ => true
  | _ => false

/-- The connected clients are served as before: main itself changes nothing in the
server, it comes back to selector_select while there is a client, and takes there whatever
their handlers can do. -/
structure Serves (m : Main) : Prop where
  untouched : ∀ n, MainStep m .go n → n.server = m.server
  back : m.server.stack = [] → m.server.poolSize ≠ 0 →
    ∃ k, Run MainStep m (List.replicate k .go) { m with place := .select }
  handled : m.place = .select → ∀ es t, (∀ e ∈ es, serves e = true) → Run Step m.server es t →
    Run MainStep m (es.map .server) { m with server := t }

theorem handled_run {es : List Event} (hplace : m.place = .select)
    (hes : ∀ e ∈ es, serves e = true) (hrun : Run Step m.server es t) :
    Run MainStep m (es.map .server) { m with server := t } := by
  generalize hs : m.server = s at hrun
  induction hrun with
  | nil =>
    subst hs
    exact .nil
  | @snoc es u v e hrun hstep ih =>
    have ha : allowed { m with server := u } e = true := by
      have he := hes e (by simp)
      cases e <;> first | exact absurd he Bool.false_ne_true | simp [allowed, hplace]
    rw [List.map_append]
    exact .snoc (ih fun e he => hes e (List.mem_append_left _ he)) (server_takes ha hstep)

theorem place_eq {p : Place} (h : m.place = p) : { m with place := p } = m := by
  rw [← h]

theorem go_takes (hidle : m.server.stack = []) (hadvance : advance m = .ok n) :
    MainStep m .go n := by
  simp only [MainStep, mainStep, hidle, true_or, if_true, hadvance]

/-- From every place of its loop where main may be, it comes to selector_select. -/
theorem back_select (h : MainOk m) (hd : m.draining = true) (hplace : looping m.place = true)
    (hsignals : m.signals < 2) (hidle : m.server.stack = []) (hsize : m.server.poolSize ≠ 0) :
    ∃ k, Run MainStep m (List.replicate k .go) { m with place := .select } := by
  have htest : Run MainStep { m with place := .test } [.go] { m with place := .select } := by
    refine .single (go_takes hidle ?_)
    simp only [advance, hsize, and_false, if_false]
  have hcheck : Run MainStep { m with place := .check } [.go, .go] { m with place := .select } := by
    refine .cons (go_takes hidle ?_) htest
    simp only [advance, Nat.not_lt.mpr (Nat.le_of_lt_succ hsignals), if_false]
  have hhead : Run MainStep { m with place := .head } [.go, .go, .go]
      { m with place := .select } := by
    refine .cons (go_takes hidle ?_) hcheck
    simp only [advance, hd, Bool.true_eq_false, and_false, if_false]
  have hasked := h.asked
  unfold Asked at hasked
  cases hm : m.place <;> rw [hm] at hplace <;> simp only [hm] at hasked
  case head => exact ⟨3, place_eq hm ▸ hhead⟩
  case stopMonitor => exact absurd (hasked.2.2.symm.trans hd) (by simp)
  case check => exact ⟨2, place_eq hm ▸ hcheck⟩
  case stopAgain | force => omega
  case test => exact ⟨1, place_eq hm ▸ htest⟩
  case select =>
    rw [place_eq hm]
    exact ⟨0, .nil⟩
  case notify =>
    refine ⟨4, .cons (go_takes hidle ?_) hhead⟩
    simp only [advance, hm]
  all_goals cases hplace

theorem draining_serves (h : MainOk m) (hd : m.draining = true) (hplace : looping m.place = true)
    (hsignals : m.signals < 2) : Serves m where
  untouched := by
    intro n hstep
    cases mainStep_takes hstep with
    | go hrest hadvance =>
      have hasked := h.asked
      unfold Asked at hasked
      unfold advance at hadvance
      cases hm : m.place <;> rw [hm] at hplace <;> simp only [hm] at hadvance hasked
      case stopMonitor => exact absurd (hasked.2.2.symm.trans hd) (by simp)
      case stopAgain | force => omega
      case head =>
        rw [if_neg (by simp [hd])] at hadvance
        rw [← Except.ok.inj hadvance]
      case check =>
        rw [if_neg (by omega)] at hadvance
        rw [← Except.ok.inj hadvance]
      case test => split at hadvance <;> rw [← Except.ok.inj hadvance]
      case select => cases hadvance
      case notify => rw [← Except.ok.inj hadvance]
      all_goals cases hplace
  back := back_select h hd hplace hsignals
  handled := fun hselect _ _ hes hrun => handled_run hselect hes hrun

end Draining

end SocksProxy.MainLoop
