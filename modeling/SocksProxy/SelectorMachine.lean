import SocksProxy.Ledgers
import SocksProxy.Runs
import SocksProxy.Selector

/-!
The selector and the code around it. A callback is whatever calls it makes, so
the functions of selector.c that call back are frames of a stack: while a
callback runs, any function of the selector may be called, and the frame goes on
when the callback has returned.
-/
namespace SocksProxy.SelectorMachine

open Ledgers Runs Selector
open ConnState (FdInterest OP_NOOP)

/-- The two callbacks of handle_iteration. -/
inductive Op
  | read
  | write
  deriving DecidableEq

def wants (i : FdInterest) : Op → Bool
  | .read => i.read
  | .write => i.write

def hasCallback (h : FdHandler) : Op → Bool
  | .read => h.handleRead
  | .write => h.handleWrite

/-- slave_r or slave_w. -/
def slave (s : FdSelector) : Op → Finset ℕ
  | .read => s.slaveR
  | .write => s.slaveW

/-- A call of handle_read or handle_write: the key, the handler table that was
used, and the registration it came from. -/
structure Dispatch where
  fd : ℕ
  op : Op
  handler : FdHandler
  data : ℕ
  serial : ℕ
  deriving DecidableEq

/-- A function that is under way. `size` is fd_size when its `struct item *` was
taken; `busy` says that a callback of it is running. -/
inductive Frame
  /-- selector_unregister_fd, in handle_close. -/
  | closing (fd size : ℕ)
  /-- The loop of selector_destroy. -/
  | destroying (i : ℕ)
  /-- The loop of handle_iteration, about to look at `i`. -/
  | iteration (i n : ℕ) (busy : Bool)
  /-- handle_iteration, between its test of slave_r and that of slave_w. -/
  | writing (i n : ℕ) (data size : ℕ) (busy : Bool)
  /-- The loop of handle_block_notifications, with the jobs that are left. -/
  | notifications (jobs : List BlockingJob) (busy : Bool)
  deriving DecidableEq

def Frame.busy : Frame → Bool
  | .closing _ _ => true
  | .destroying _ => false
  | .iteration _ _ busy => busy
  | .writing _ _ _ _ busy => busy
  | .notifications _ busy => busy

/-- The selector, the functions under way, and what is remembered of the past:
the registrations, with the calls of handle_close as their ends, the calls of
handle_iteration, and the table at the last pselect. -/
structure Machine where
  sel : FdSelector
  stack : List Frame
  alive : Bool
  issued : ℕ
  registrations : Ledger ℕ
  dispatched : List Dispatch
  before : List Item
  mark : ℕ

def start (s : FdSelector) : Machine where
  sel := s
  stack := []
  alive := true
  issued := 0
  registrations := Ledger.empty
  dispatched := []
  before := []
  mark := 0

/-- What pselect returns; it leaves a subset of each set. -/
inductive Pselect
  | ready (r w : Finset ℕ)
  | interrupted
  | badf
  | failed

/-- A call, with the answer of the allocator where it asks, or the return to the
function on top of the stack. -/
inductive Event
  | register (fd : ℤ) (handler : Option FdHandler) (interest : FdInterest) (data : ℕ)
      (alloc : Bool)
  | unregister (fd : ℤ)
  | setInterest (fd : ℤ) (i : FdInterest)
  | setInterestKey (keyFd : ℤ) (i : FdInterest)
  | notifyBlockDone (fd : ℤ) (data : ℕ) (alloc : Bool)
  | select (answer : Pselect)
  | destroy
  | next

/-- The program outside the selector is running: nothing is under way, or a callback. -/
def Machine.outside (m : Machine) : Bool :=
  match m.stack with
  | [] => true
  | f :: _ => f.busy

/-- resolution_mutex is held by handle_block_notifications. -/
def Machine.draining (m : Machine) : Bool :=
  m.stack.any fun
    | .notifications _ _ => true
    | _ => false

abbrev Result := Except Halt (Machine × Option SelectorStatus)

def handleClose (item : Item) : Bool := (item.handler.map FdHandler.handleClose).getD false

def unregister (m : Machine) (fd : ℤ) : Result := do
  match ← unregisterStart m.sel fd with
  | .error status => .ok (m, some status)
  | .ok item =>
    if handleClose item then
      .ok ({ m with
        stack := .closing fd.toNat m.sel.fdSize :: m.stack
        registrations := m.registrations.settle item.serial }, none)
    else
      let s ← unregisterEnd m.sel fd.toNat
      .ok ({ m with sel := s }, some .success)

def register (m : Machine) (fd : ℤ) (handler : Option FdHandler) (interest : FdInterest)
    (data : ℕ) (alloc : Bool) : Result := do
  let (status, s) ← selectorRegister alloc m.issued m.sel fd handler interest data
  if status = .success then
    let closes := (handler.map FdHandler.handleClose).getD false
    .ok ({ m with
      sel := s
      issued := m.issued + 1
      registrations :=
        if closes then m.registrations.issue m.issued else m.registrations }, some status)
  else .ok ({ m with sel := s }, some status)

/-- handle_read or handle_write of the item at `i`; the frame `f` waits for it. -/
def dispatch (m : Machine) (i : ℕ) (op : Op) (item : Item) (data : ℕ) (f : Frame)
    (rest : List Frame) : Result :=
  match item.handler with
  | none => .error .assertion
  | some h =>
    if hasCallback h op then
      .ok ({ m with
        stack := f :: rest
        dispatched := { fd := i, op := op, handler := h, data := data, serial := item.serial } ::
          m.dispatched }, none)
    else .error .assertion

/-- One round of handle_iteration, up to its test of slave_w. -/
def iterate (m : Machine) (i n : ℕ) (rest : List Frame) : Result :=
  if n < i then
    .ok ({ m with stack := .notifications m.sel.resolutionJobs false :: rest }, none)
  else do
    let item ← itemAt m.sel i
    if !item.used then .ok ({ m with stack := .iteration (i + 1) n false :: rest }, none)
    else if item.fd.toNat ∈ m.sel.slaveR ∧ item.interest.read then
      dispatch m i .read item item.data (.writing i n item.data m.sel.fdSize true) rest
    else
      .ok ({ m with stack := .writing i n item.data m.sel.fdSize false :: rest }, none)

/-- The rest of the round. The item is not looked up again, and it is read only when
the bit of slave_w is set. -/
def iterateWrite (m : Machine) (i n data size : ℕ) (rest : List Frame) : Result :=
  if i ∈ m.sel.slaveW then
    if m.sel.fdSize ≠ size then .error .dangling
    else do
      let item ← itemAt m.sel i
      if item.interest.write then
        dispatch m i .write item data (.iteration (i + 1) n true) rest
      else .ok ({ m with stack := .iteration (i + 1) n false :: rest }, none)
  else .ok ({ m with stack := .iteration (i + 1) n false :: rest }, none)

def notify (m : Machine) (j : BlockingJob) (jobs : List BlockingJob) (rest : List Frame) :
    Result := do
  let item ← itemAt m.sel j.fd
  let calls := item.used && item.data = j.data &&
    (item.handler.map FdHandler.handleBlockDone).getD false
  .ok ({ m with stack := .notifications jobs calls :: rest }, none)

/-- The function on top of the stack goes on. -/
def next (m : Machine) : Result :=
  match m.stack with
  | [] => .error .unreal
  | .closing fd size :: rest =>
    if m.sel.fdSize ≠ size then .error .dangling
    else do
      let s ← unregisterEnd m.sel fd
      .ok ({ m with sel := s, stack := rest }, some .success)
  | .destroying i :: rest =>
    if i < m.sel.fdSize then do
      let item ← itemAt m.sel i
      let m := { m with stack := .destroying (i + 1) :: rest }
      if item.used then unregister m i else .ok (m, none)
    else
      .ok ({ m with
        sel := { m.sel with fds := [], resolutionJobs := [] }
        stack := rest, alive := false }, none)
  | .iteration i n _ :: rest => iterate m i n rest
  | .writing i n data size _ :: rest => iterateWrite m i n data size rest
  | .notifications [] _ :: rest =>
    .ok ({ m with sel := { m.sel with resolutionJobs := [] }, stack := rest }, some .success)
  | .notifications (j :: jobs) _ :: rest => notify m j jobs rest

/-- selector_select up to its first callback. -/
def select (m : Machine) (answer : Pselect) : Result :=
  let s := { m.sel with slaveR := m.sel.masterR, slaveW := m.sel.masterW }
  match answer with
  | .ready r w =>
    .ok ({ m with
      sel := { s with slaveR := s.slaveR ∩ r, slaveW := s.slaveW ∩ w }
      stack := [.iteration 0 s.maxFd false], before := s.fds, mark := m.issued }, none)
  | .interrupted =>
    .ok ({ m with sel := s, stack := [.notifications s.resolutionJobs false] }, none)
  | .badf => .ok ({ m with sel := s }, some .io)
  | .failed => .ok ({ m with sel := s }, some .io)

/-- A call that the running code makes. -/
def call (m : Machine) : Event → Result
  | .register fd handler interest data alloc => register m fd handler interest data alloc
  | .unregister fd => unregister m fd
  | .setInterest fd i => do
    let (status, s) ← selectorSetInterest m.sel fd i
    .ok ({ m with sel := s }, some status)
  | .setInterestKey keyFd i => do
    let (status, s) ← selectorSetInterestKey m.sel keyFd i
    .ok ({ m with sel := s }, some status)
  | .notifyBlockDone fd data alloc =>
    if alloc then
      let job := { fd := fd, data := data }
      .ok ({ m with sel := { m.sel with resolutionJobs := job :: m.sel.resolutionJobs } },
        some .success)
    else .ok (m, some .enomem)
  | .select answer => select m answer
  | .destroy => .ok ({ m with stack := [.destroying 0] }, none)
  | .next => next m

/-- Calls are made from outside the selector; a worker notifies while the mutex
is free; selector_select and selector_destroy are called at the top. -/
def Enabled (m : Machine) : Event → Prop
  | .notifyBlockDone _ _ _ => m.alive = true ∧ m.draining = false
  | .select _ => m.alive = true ∧ m.stack = []
  | .destroy => m.alive = true ∧ m.stack = []
  | .next => m.stack ≠ []
  | _ => m.alive = true ∧ m.outside = true

instance (m : Machine) : (e : Event) → Decidable (Enabled m e)
  | .notifyBlockDone _ _ _ => inferInstanceAs (Decidable (_ ∧ _))
  | .select _ => inferInstanceAs (Decidable (_ ∧ _))
  | .destroy => inferInstanceAs (Decidable (_ ∧ _))
  | .next => inferInstanceAs (Decidable (_ ≠ _))
  | .register _ _ _ _ _ => inferInstanceAs (Decidable (_ ∧ _))
  | .unregister _ => inferInstanceAs (Decidable (_ ∧ _))
  | .setInterest _ _ => inferInstanceAs (Decidable (_ ∧ _))
  | .setInterestKey _ _ => inferInstanceAs (Decidable (_ ∧ _))

def Step (m : Machine) (e : Event) (m' : Machine) : Prop :=
  Enabled m e ∧ ∃ status, call m e = .ok (m', status)

/-- The step as a partial function, to replay a list of events. -/
def advance (m : Machine) (e : Event) : Option Machine :=
  if Enabled m e then (call m e).toOption.map Prod.fst else none

theorem step_of_advance {m m' : Machine} {e : Event} (h : advance m e = some m') : Step m e m' := by
  unfold advance at h
  split at h
  next hen =>
    cases hcall : call m e with
    | error halt =>
      rw [hcall] at h
      exact absurd h (by simp [Except.toOption])
    | ok r =>
      rw [hcall] at h
      obtain rfl := Option.some.inj h
      exact ⟨hen, r.2, hcall⟩
  next => exact absurd h (by simp)

def replay (m : Machine) (es : List Event) : Option Machine := es.foldlM advance m

theorem replay_run {m m' : Machine} {es : List Event} (h : replay m es = some m') :
    Run Step m es m' := Run.of_foldlM step_of_advance h

end SocksProxy.SelectorMachine
