import SocksProxy.Access

/-!
What DEL_USER takes away. Once a name is not in the user table, nobody logs in
under it any more, neither as a client nor as a monitor, until a session adds it
again; relays that run are not looked at.
-/
namespace SocksProxy.Revocation

open Auth UserTable MonProtocol MonServer MonLoop Kernel ConnState Connection TableViews UserMap
open Lifetime Runs Proxy Access

variable {users : List (CString × CString)} {ntop : List UInt8 → Option (List UInt8)}
  {p p' q : Process} {c c' : Conn} {e : ProcessEvent} {i : ℕ} {name : List UInt8}

/-- The calls that the `i`-th connection has made. -/
def callsOf (p : Process) (i : ℕ) : List Call := p.conns[i]?.elim [] (·.trace)

theorem callsOf_some (hi : p.conns[i]? = some c) : callsOf p i = c.trace := by
  rw [callsOf, hi]
  rfl

theorem callsOf_publish (p : Process) (s : Server) (i : ℕ) :
    callsOf (p.publish s) i = callsOf p i := by
  have hmap : (p.publish s).conns[i]? = p.conns[i]?.map fun c => { c with users := s.users } :=
    List.getElem?_map ..
  rw [callsOf, callsOf, hmap]
  cases p.conns[i]? <;> rfl

/-- In one step a connection makes its lookups in the table of the process. -/
theorem calls_step (h : Parts p) (hstep : ProcessStep ntop p e p') (i : ℕ) :
    ∃ u, callsOf p' i = callsOf p i ++ u ∧
      ∀ t name pass, .lookup t name pass ∈ u → t = p.server.users := by
  cases step_moved hstep with
  | accept fd =>
    refine ⟨[], ?_, by simp⟩
    rw [List.append_nil, callsOf, callsOf]
    by_cases hlt : i < p.conns.length
    · rw [List.getElem?_append_left hlt]
    · rw [List.getElem?_append_right (not_lt.mp hlt), List.getElem?_eq_none (not_lt.mp hlt)]
      cases hnew : [socks5Init fd p.server.users][i - p.conns.length]? with
      | none => rfl
      | some c =>
        obtain rfl := List.mem_singleton.mp (List.mem_of_getElem? hnew)
        rfl
  | @connection k c c' e now hc htable hone =>
    obtain ⟨-, u, hu, hlooked⟩ := handle_consults htable hone.2
    rw [h.shared.conns c (List.mem_of_getElem? hc)] at hlooked
    rw [Process.advance, callsOf_publish]
    by_cases hk : k = i
    · subst hk
      refine ⟨u, ?_, hlooked⟩
      rw [callsOf_some hc, ← hu]
      exact callsOf_some (List.getElem?_set_self (List.getElem?_eq_some_iff.mp hc).1)
    · refine ⟨[], ?_, by simp⟩
      rw [List.append_nil, callsOf, callsOf]
      exact congrArg (fun o : Option Conn => o.elim [] (·.trace)) (List.getElem?_set_ne hk)
  | monAccept => exact ⟨[], (List.append_nil _).symm, by simp⟩
  | session => exact ⟨[], (callsOf_publish ..).trans (List.append_nil _).symm, by simp⟩
  | report => exact ⟨[], (callsOf_publish ..).trans (List.append_nil _).symm, by simp⟩

/-- Nobody is registered under the name. -/
def Absent (name : List UInt8) (t : Table) : Prop := ∀ pass, (name, pass) ∉ credentials t

theorem Absent.lookup (h : Absent name t) (hrep : Represented t) (pass : List UInt8) :
    userTableLookup t name pass = false := by
  by_contra hfound
  exact h pass (hrep.lookup_iff.mp (by simpa using hfound))

/-- The step does not execute an ADD_USER with the name for a session that is
logged in. -/
def Unadded (ntop : List UInt8 → Option (List UInt8)) (name : List UInt8) (p : Process)
    (e : ProcessEvent) : Prop :=
  ∀ p', ProcessStep ntop p e p' → ∀ x ∈ p'.executed.drop p.executed.length,
    ¬ (x.2.request.cmd = MON_CMD_ADD_USER ∧ x.2.authenticated = true ∧
      firstArg x.2.request = name)

/-- Since `q` nobody has come in under the name. -/
structure Barred (name : List UInt8) (q p : Process) : Prop where
  absent : Absent name p.server.users
  clients : ∀ i, ∃ u, callsOf p i = callsOf q i ++ u ∧
    ∀ t pass, .lookup t name pass ∈ u → userTableLookup t name pass = false
  monitors : ∃ l, p.executed = q.executed ++ l ∧ ∀ x ∈ l, ∀ pass,
    userTableLookup x.2.server.users name pass = false

theorem barred_step (hacc : Accountable users p) (h : Barred name q p)
    (hstep : Guarded (ProcessStep ntop) (Unadded ntop name) p e p') : Barred name q p' := by
  obtain ⟨hunadded, hstep⟩ := hstep
  refine ⟨?_, fun i => ?_, ?_⟩
  · rcases executed_step hacc.parts hstep with
      ⟨-, hsame⟩ | ⟨j, r, auth, hexecuted, hserver, heffect⟩
    · exact hsame.symm ▸ h.absent
    · intro pass hin
      have hrep : Represented r.server.users := hserver.symm ▸ hacc.represented
      rcases (effect_accounts heffect hrep).2 _ hin with hin | hadds
      · exact h.absent pass (hserver ▸ hin)
      · refine hunadded p' hstep (j, r) ?_
          ⟨hadds.cmd, hadds.authenticated, (congrArg Prod.fst hadds.account).symm⟩
        rw [hexecuted, List.drop_left]
        exact List.mem_cons_self
  · obtain ⟨u, hu, hfailed⟩ := h.clients i
    obtain ⟨v, hv, hlooked⟩ := calls_step hacc.parts hstep i
    refine ⟨u ++ v, by rw [hv, hu, List.append_assoc], fun t pass hmem => ?_⟩
    rcases List.mem_append.mp hmem with hmem | hmem
    · exact hfailed t pass hmem
    · rw [hlooked t name pass hmem]
      exact h.absent.lookup hacc.represented pass
  · obtain ⟨l, hl, hfailed⟩ := h.monitors
    rcases executed_step hacc.parts hstep with ⟨hsame, -⟩ | ⟨j, r, auth, hexecuted, hserver, -⟩
    · exact ⟨l, hsame.trans hl, hfailed⟩
    · refine ⟨l ++ [(j, r)], by rw [hexecuted, hl, List.append_assoc], fun x hx pass => ?_⟩
      rcases List.mem_append.mp hx with hx | hx
      · exact hfailed x hx pass
      · rw [List.mem_singleton.mp hx, hserver]
        exact h.absent.lookup hacc.represented pass

/-- A name that is not in the table lets nobody in, on either port, for as long
as no session adds it. -/
theorem removed_stays_out {es₀ es : List ProcessEvent}
    (h₀ : Run (ProcessStep ntop) (processInit users) es₀ q) (hout : Absent name q.server.users)
    (h : Run (Guarded (ProcessStep ntop) (Unadded ntop name)) q es p) : Barred name q p := by
  have hinit : Barred name q q :=
    { absent := hout
      clients := fun i => ⟨[], (List.append_nil _).symm, by simp⟩
      monitors := ⟨[], (List.append_nil _).symm, by simp⟩ }
  exact h.invariant_with (I := Accountable users) (accountable_run h₀) hinit
    (fun hacc hstep => accountable_step hacc hstep.2)
    (fun hacc _ hbarred hstep => barred_step hacc hbarred hstep)

/-- Only a session executes requests. -/
theorem unadded_connection (p : Process) (i : ℕ) (e : Event) (now : Int64) :
    Unadded ntop name p (.connection i e now) := by
  intro p' hstep x hx
  unfold ProcessStep processStep at hstep
  dsimp only at hstep
  split at hstep
  · cases hstep
  obtain ⟨c, -, hstep⟩ := Option.bind_eq_some_iff.mp hstep
  obtain ⟨c', -, rfl⟩ := Option.map_eq_some_iff.mp hstep
  rw [show (p.advance i (newlyLogged ntop now c c') c').executed = p.executed from rfl,
    List.drop_length] at hx
  cases hx

/-- `v` is added, connects, and is removed again. -/
def takenBack : List ProcessEvent :=
  passedOn.take 6 ++ [.session 0 (.recv [1, 2, 1, 1, 118]), .session 0 (.send 4)]

/-- `v` logs in. -/
def triedAgain : List ProcessEvent :=
  [arrives helloBytes, flushes, arrives [1, 1, 118, 1, 113]].map fun e => .connection 0 e 0

theorem removed_stays_out_tried : ∃ q p,
    Run (ProcessStep fun _ => none) (processInit oneUser) takenBack q ∧
    Run (ProcessStep fun _ => none) q triedAgain p ∧
    (callsOf p 0).length = 4 ∧ Barred [118] q p := by
  have hplayed : (takenBack.foldlM (processStep fun _ => none) (processInit oneUser)).bind
      (fun q => (triedAgain.foldlM (processStep fun _ => none) q).map fun p =>
        (credentials q.server.users, (callsOf p 0).length)) =
      some ([([117], [112])], 4) := by decide +kernel
  obtain ⟨q, hq, hplayed⟩ := Option.bind_eq_some_iff.mp hplayed
  obtain ⟨p, hp, hends⟩ := Option.map_eq_some_iff.mp hplayed
  obtain ⟨hcredentials, hcalls⟩ := Prod.mk.inj hends
  have hrun₀ : Run (ProcessStep fun _ => none) (processInit oneUser) takenBack q :=
    Run.of_foldlM (fun h => h) hq
  have hrun : Run (ProcessStep fun _ => none) q triedAgain p := Run.of_foldlM (fun h => h) hp
  have hout : Absent [118] q.server.users := by
    intro pass hin
    rw [hcredentials] at hin
    simp at hin
  refine ⟨q, p, hrun₀, hrun, hcalls, removed_stays_out hrun₀ hout (hrun.guarded ?_)⟩
  intro e he a
  obtain ⟨e', -, rfl⟩ := List.mem_map.mp he
  exact unadded_connection a 0 e' 0

end SocksProxy.Revocation
