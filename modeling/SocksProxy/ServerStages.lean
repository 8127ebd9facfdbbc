import SocksProxy.ServerParts

/-!
What the main thread is in the middle of. Its stack is always some work on one
connection, on top of the loop or the handler that began it; and the fields of
that connection are those of the stage it has come to. All other connections
stand: they are open, or have nothing left.
-/
namespace SocksProxy.ServerStages

open Kernel Ledgers ServerState ServerSteps ServerRefs ServerSockets ServerLookups
open ServerEntries ServerPool ServerParts
open ConnState (Socks5State)

variable {s t : Server} {a fd n m : ℕ} {o o' : Socks5} {fs fs' : List Frame} {cs cs' : List ℕ}

/-- The work on one connection, named after the call that is next. `reenter` is the
call of socks5_connection_close out of socksv5_close. -/
inductive Doing
  | nothing
  | close (a : ℕ)
  | cancel (a : ℕ)
  | clientClose (a : ℕ)
  | reenter (a fd : ℕ)
  | clearClient (a fd : ℕ)
  | clientCloseFd (a fd : ℕ)
  | originClose (a : ℕ)
  | clearOrigin (a fd : ℕ)
  | originCloseFd (a : ℕ)
  | release (a : ℕ)
  | resolveStart (a : ℕ)
  | resolveSpawn (a : ℕ)
  | resolveFailed (a : ℕ) (e : Errno)
  | clearDrop (a fd : ℕ)
  | originDrop (a : ℕ)

/-- What the work was begun by, and goes back to. -/
inductive Bottom
  | idle
  | notifications
  | cleanup
  | force
  | forceCheck (a : ℕ)
  | destroy (i : ℕ)
  | clearDestroy (fd : ℕ) (data : Option ℕ)
  | destroyJobs
  | ended
  | clearOther (fd : ℕ) (data : Option ℕ)
  | closeOther (fd : ℕ)

namespace Doing

def frames : Doing → List Frame
  | nothing => []
  | close a => [.connectionClose a]
  | cancel a => [.cancel a, .clientClose a, .originClose a, .release a]
  | clientClose a => [.clientClose a, .originClose a, .release a]
  | reenter a fd =>
    [.connectionClose a, .clear fd (some a), .clientCloseFd a fd, .originClose a, .release a]
  | clearClient a fd => [.clear fd (some a), .clientCloseFd a fd, .originClose a, .release a]
  | clientCloseFd a fd => [.clientCloseFd a fd, .originClose a, .release a]
  | originClose a => [.originClose a, .release a]
  | clearOrigin a fd => [.clear fd (some a), .originCloseFd a, .release a]
  | originCloseFd a => [.originCloseFd a, .release a]
  | release a => [.release a]
  | resolveStart a => [.resolveStart a]
  | resolveSpawn a => [.resolveSpawn a]
  | resolveFailed a e => [.resolveFailed a e]
  | clearDrop a fd => [.clear fd (some a), .originDrop a]
  | originDrop a => [.originDrop a]

def subject : Doing → Option ℕ
  | nothing => none
  | close a | cancel a | clientClose a | reenter a _ | clearClient a _ | clientCloseFd a _
  | originClose a | clearOrigin a _ | originCloseFd a | release a | resolveStart a
  | resolveSpawn a | resolveFailed a _ | clearDrop a _ | originDrop a => some a

def clearing : Doing → List ℕ
  | reenter _ fd | clearClient _ fd | clearOrigin _ fd | clearDrop _ fd => [fd]
  | _ => []

end Doing

namespace Bottom

def frames : Bottom → List Frame
  | idle => []
  | notifications => [.notifications]
  | cleanup => [.cleanup, .notifications]
  | force => [.force]
  | forceCheck a => [.forceCheck a, .force]
  | destroy i => [.destroy i]
  | clearDestroy fd data => [.clear fd data, .destroy (fd + 1)]
  | destroyJobs => [.destroyJobs]
  | ended => [.ended]
  | clearOther fd data => [.clear fd data, .close fd]
  | closeOther fd => [.close fd]

def clearing : Bottom → List ℕ
  | clearDestroy fd _ | clearOther fd _ => [fd]
  | _ => []

/-- The jobs that handle_block_notifications has not come to. -/
def pending (b : Bottom) (jobs : List BlockingJob) : List BlockingJob :=
  match b with
  | cleanup => jobs.tail
  | _ => jobs

/-- The handlers of a connection may be at work on top of it. -/
def serves : Bottom → Bool
  | idle | cleanup => true
  | _ => false

/-- A connection may be closed on top of it. -/
def closes : Bottom → Bool
  | idle | cleanup | forceCheck _ | clearDestroy _ _ => true
  | _ => false

/-- selector_destroy is in its first loop. -/
def destroying : Bottom → Bool
  | destroy _ | clearDestroy _ _ => true
  | _ => false

/-- What the loop or the handler relies on. -/
def Footing (s : Server) (subject : Option ℕ) : Bottom → Prop
  | idle | notifications | force => True
  | cleanup => s.jobs ≠ []
  | forceCheck a =>
    match subject with
    | none => a ∉ s.pool
    | some c => c = a
  | destroy i => ∀ e < i, s.items e = none
  | clearDestroy fd _ => ∀ e < fd, s.items e = none
  | destroyJobs | ended => ∀ e, s.items e = none
  | clearOther fd _ => ∃ sk, s.fds fd = some sk ∧ sk.owner = none
  | closeOther fd => s.items fd = none ∧ ∃ sk, s.fds fd = some sk ∧ sk.owner = none

end Bottom

/-- The work that is under way may be begun by that. -/
def Allowed (b : Bottom) : Doing → Prop
  | .nothing => True
  | .resolveStart _ | .resolveSpawn _ | .resolveFailed _ _ | .clearDrop _ _ | .originDrop _ =>
    b.serves = true
  | _ => b.closes = true

/-- The states before a request was read as a whole. -/
def early : Socks5State → Bool
  | .helloRead | .helloWrite | .authRead | .authWrite | .requestRead => true
  | _ => false

/-- Nobody has begun to close the connection. -/
structure Open (o : Socks5) : Prop where
  closing : o.closing = false
  cancelled : o.cancelled = false
  clientRegistered : o.clientRegistered = true

/-- A connection that the main thread is not working on; `n` lookups are on the
way to it. -/
structure Standing (b : Bottom) (n : ℕ) (o : Socks5) : Prop extends Open o where
  unregistered : o.originRegistered = false → o.originFd = none ∨ b.destroying = true
  waiting : 0 < n → o.originFd = none ∧ o.current = .connecting
  settled : early o.current = true → o.originFd = none

/-- The connection is beyond socks5_cancel. -/
structure Ending (o : Socks5) : Prop where
  closing : o.closing = true
  cancelled : o.cancelled = true

/-- What has come about when the work is at this stage. -/
def Doing.Stage (b : Bottom) (n : ℕ) (o : Socks5) : Doing → Prop
  | .nothing => True
  | .close _ => o.closing = false ∧ (∃ fd, o.clientFd = some fd) ∧ (b = .cleanup → n = 0)
  | .cancel _ => o.closing = true ∧ (∃ fd, o.clientFd = some fd) ∧ (b = .cleanup → n = 0)
  | .clientClose _ => Ending o ∧ ∃ fd, o.clientFd = some fd
  | .reenter _ fd | .clearClient _ fd | .clientCloseFd _ fd =>
    Ending o ∧ o.clientRegistered = false ∧ o.clientFd = some fd
  | .originClose _ => Ending o ∧ o.clientRegistered = false ∧ o.clientFd = none
  | .clearOrigin _ _ | .originCloseFd _ =>
    Ending o ∧ o.clientRegistered = false ∧ o.clientFd = none ∧ o.originRegistered = false
  | .release _ => Gone o
  | .resolveStart _ | .resolveSpawn _ | .resolveFailed _ _ =>
    Open o ∧ o.originRegistered = false ∧ o.originFd = none ∧ o.dnsResult = none ∧ n = 0
  | .clearDrop _ _ | .originDrop _ =>
    Open o ∧ o.originRegistered = false ∧ early o.current = false ∧ n = 0

/-- Everything that holds apart from the stage of the connection at work. -/
structure Ground (s : Server) (b : Bottom) (fs : List Frame) (cs : List ℕ)
    (subject : Option ℕ) : Prop where
  parts : Parts none s s.jobs (b.pending s.jobs) (cs ++ b.clearing)
  stack : s.stack = fs ++ b.frames
  clearing_nodup : (cs ++ b.clearing).Nodup
  standing : ∀ a o, s.heap a = some o → o.released = false → subject ≠ some a →
    Standing b (flying s.workers (b.pending s.jobs) a) o
  footing : b.Footing s subject

structure Ok (s : Server) (d : Doing) (b : Bottom) : Prop where
  ground : Ground s b d.frames d.clearing d.subject
  allowed : Allowed b d
  stage : ∀ a, d.subject = some a → ∃ o, s.heap a = some o ∧ o.released = false ∧
    d.Stage b (flying s.workers (b.pending s.jobs) a) o

variable {b b' : Bottom} {d : Doing}

theorem Standing.fewer (h : Standing b n o) (hle : m ≤ n) : Standing b m o :=
  { h with waiting := fun hm => h.waiting (Nat.lt_of_lt_of_le hm hle) }

theorem Standing.bottom (h : Standing b n o) (hb : b.destroying = true → b'.destroying = true) :
    Standing b' n o :=
  { h with unregistered := fun hunreg => (h.unregistered hunreg).imp_right hb }

theorem Standing.moved (h : Standing b n o) (hb : b.destroying = true → b'.destroying = true)
    (hle : m ≤ n) : Standing b' m o := (h.bottom hb).fewer hle

theorem Bottom.closes_of_serves (hb : b.serves = true) : b.closes = true := by
  cases b <;> first | rfl | exact absurd hb (by simp [Bottom.serves])

theorem Bottom.serves_clearing (hb : b.serves = true) : b.clearing = [] := by
  cases b <;> first | rfl | exact absurd hb (by simp [Bottom.serves])

/-- The footing is kept when no unused entry is taken, which only the handlers
of a connection do. -/
theorem Bottom.Footing.keep (h : b.Footing s (some a)) (hb : b.closes = true)
    (hjobs : t.jobs = s.jobs)
    (hitems : b.serves = true ∨ ∀ e, s.items e = none → t.items e = none) :
    b.Footing t (some a) := by
  cases b with
  | idle => trivial
  | cleanup =>
    show t.jobs ≠ []
    rw [hjobs]
    exact h
  | forceCheck c => exact h
  | clearDestroy fd data =>
    rcases hitems with hserves | hitems
    · exact absurd hserves (by simp [Bottom.serves])
    · exact fun e he => hitems e (h e he)
  | notifications | force | destroy | destroyJobs | ended | clearOther | closeOther =>
    exact absurd hb (by simp [Bottom.closes])

/-- The work on `a` goes on; nothing else has changed. -/
theorem Ground.advance (h : Ground s b fs cs (some a)) (hb : b.closes = true)
    (hparts : Parts none t s.jobs (b.pending s.jobs) (cs' ++ b.clearing))
    (hstack : t.stack = fs' ++ b.frames) (hnodup : (cs' ++ b.clearing).Nodup)
    (hheap : ∀ c, c ≠ a → t.heap c = s.heap c) (hworkers : t.workers = s.workers)
    (hjobs : t.jobs = s.jobs)
    (hitems : b.serves = true ∨ ∀ e, s.items e = none → t.items e = none) :
    Ground t b fs' cs' (some a) where
  parts := by
    rw [hjobs]
    exact hparts
  stack := hstack
  clearing_nodup := hnodup
  standing := by
    intro c p hp hopen hne
    rw [hworkers, hjobs]
    have hca : c ≠ a := fun heq => hne (heq ▸ rfl)
    rw [hheap c hca] at hp
    exact h.standing c p hp hopen hne
  footing := h.footing.keep hb hjobs hitems

/-- The call `fs` is made instead; nothing has changed. -/
theorem Ground.restack {subject : Option ℕ} (h : Ground s b fs cs subject) (fs' : List Frame) :
    Ground { s with stack := fs' ++ b.frames } b fs' cs subject where
  parts := h.parts.stack _
  stack := rfl
  clearing_nodup := h.clearing_nodup
  standing := h.standing
  footing := by
    have hfooting := h.footing
    cases b <;> exact hfooting

/-- The work on `a` is over, and it stands or is released. -/
theorem Ground.drop (h : Ground s b [] [] (some a)) (hb : b.closes = true)
    (hdone : ∀ o, s.heap a = some o → o.released = false →
      b.serves = true ∧ Standing b (flying s.workers (b.pending s.jobs) a) o) :
    Ground s b [] [] none where
  parts := h.parts
  stack := h.stack
  clearing_nodup := h.clearing_nodup
  standing := by
    intro c p hp hopen _
    by_cases hca : c = a
    · subst hca
      exact (hdone p hp hopen).2
    · exact h.standing c p hp hopen (by simpa using Ne.symm hca)
  footing := by
    have hfooting := h.footing
    cases b with
    | idle => trivial
    | cleanup => exact hfooting
    | forceCheck c =>
      -- who is in the pool stands, and here nobody may come back to stand
      intro hmem
      obtain rfl : a = c := hfooting
      obtain ⟨p, hp, hreg⟩ := (h.parts.pool.mem_iff a).mp hmem
      have hopen : p.released = false := by
        by_contra hrel
        have hgone := h.parts.gone a p hp (by simpa using hrel)
        exact absurd (hreg.symm.trans (hgone.unregistered .client)) (by simp)
      exact absurd (hdone p hp hopen).1 (by simp [Bottom.serves])
    | clearDestroy fd data => exact hfooting
    | notifications | force | destroy | destroyJobs | ended | clearOther | closeOther =>
      exact absurd hb (by simp [Bottom.closes])

/-- A handler turns to the connection `a`. -/
theorem Ground.pick (h : Ground s b fs cs none) (hb : b.serves = true) (a : ℕ) :
    Ground s b fs cs (some a) where
  parts := h.parts
  stack := h.stack
  clearing_nodup := h.clearing_nodup
  standing := fun c p hp hopen _ => h.standing c p hp hopen (by simp)
  footing := by
    have hfooting := h.footing
    cases b with
    | idle => trivial
    | cleanup => exact hfooting
    | notifications | force | forceCheck | destroy | clearDestroy | destroyJobs | ended
    | clearOther | closeOther => exact absurd hb (by simp [Bottom.serves])

/-- The main thread goes on, or waits; it never does what Halt.fault stands for. -/
def Good (r : Except Halt Server) : Prop :=
  match r with
  | .ok t => ∃ d b, Ok t d b
  | .error h => h ≠ .fault

theorem good_unreal : Good (.error .unreal) := by simp [Good]

theorem good_abort : Good (.error .abort) := by simp [Good]

end SocksProxy.ServerStages
