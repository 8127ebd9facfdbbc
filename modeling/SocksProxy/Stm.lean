import Mathlib.Tactic.Common

/-!
stm.c: the state machine engine. A state is a record of optional callbacks; an
event runs the callback of the current state and jumps to the state it returns,
running the departure and arrival callbacks on the way. A missing read or write
callback is `abort()`, here `none`.
-/
namespace SocksProxy.Stm

variable {ι κ : Type*} [DecidableEq ι]

/-- `struct state_definition`; `κ` is what the callbacks reach through their key. -/
structure StateDefinition (ι κ : Type*) where
  onArrival : Option (κ → κ) := none
  onDeparture : Option (κ → κ) := none
  onReadReady : Option (κ → ι × κ) := none
  onWriteReady : Option (κ → ι × κ) := none

/-- `struct state_machine` without its current state. Every index is a state,
so the range checks of stm_init and jump cannot fail. -/
structure StateMachine (ι κ : Type*) where
  initial : ι
  states : ι → StateDefinition ι κ

def arrive (m : StateMachine ι κ) (s : ι) (k : κ) : κ :=
  match (m.states s).onArrival with
  | some f => f k
  | none => k

def depart (m : StateMachine ι κ) (s : ι) (k : κ) : κ :=
  match (m.states s).onDeparture with
  | some f => f k
  | none => k

def handleFirst (m : StateMachine ι κ) (current : Option ι) (k : κ) : ι × κ :=
  match current with
  | some s => (s, k)
  | none => (m.initial, arrive m m.initial k)

def jump (m : StateMachine ι κ) (current next : ι) (k : κ) : ι × κ :=
  if current ≠ next then (next, arrive m next (depart m current k)) else (current, k)

def stmHandlerRead (m : StateMachine ι κ) (current : Option ι) (k : κ) : Option (ι × κ) :=
  let (s, k) := handleFirst m current k
  match (m.states s).onReadReady with
  | none => none
  | some f =>
    let (next, k) := f k
    some (jump m s next k)

def stmHandlerWrite (m : StateMachine ι κ) (current : Option ι) (k : κ) : Option (ι × κ) :=
  let (s, k) := handleFirst m current k
  match (m.states s).onWriteReady with
  | none => none
  | some f =>
    let (next, k) := f k
    some (jump m s next k)

@[simp] theorem jump_self (m : StateMachine ι κ) (s : ι) (k : κ) : jump m s s k = (s, k) := by
  simp [jump]

theorem jump_of_ne (m : StateMachine ι κ) {s t : ι} (h : s ≠ t) (k : κ) :
    jump m s t k = (t, arrive m t (depart m s k)) := by
  simp [jump, h]

end SocksProxy.Stm
