import SocksProxy.AddUserStatus
import SocksProxy.AuthGate
import SocksProxy.Proxy

/-!
Where the permission to use the proxy comes from. An account is configured on
the command line, or a monitoring session has added it that had itself logged in
with such an account before; and so on, back to the command line.
-/
namespace SocksProxy.Access

open Auth UserTable AccessLog MonProtocol MonServer MonLoop Kernel ConnState Connection TableViews
open UserMap Stages Runs Proxy

/-- A name and a password. -/
abbrev Account := List UInt8 × List UInt8

/-- The account of the first two arguments. -/
def accountOf (r : Served) : Account := (firstArg r.request, secondArg r.request)

def Configured (users : List (CString × CString)) (a : Account) : Prop :=
  ∃ user ∈ users, a = (user.1.val, user.2.val)

/-- AUTH with the two arguments of an account that is in the table. -/
structure LogsIn (r : Served) (a : Account) : Prop where
  cmd : r.request.cmd = MON_CMD_AUTH
  nargs : r.request.nargs = 2
  account : a = accountOf r
  stored : a ∈ credentials r.server.users

/-- ADD_USER of a session that is logged in, and user_table_add has returned true. -/
structure Adds (r : Served) (a : Account) : Prop where
  cmd : r.request.cmd = MON_CMD_ADD_USER
  nargs : r.request.nargs = 2
  authenticated : r.authenticated = true
  account : a = accountOf r
  done : (userTableAdd r.server.users a.1 a.2).1 = true

/-- The `j`-th session has logged in with the account, which was in the table. -/
def LoggedIn (h : List (ℕ × Served)) (j : ℕ) (a : Account) : Prop := ∃ r, (j, r) ∈ h ∧ LogsIn r a

/-- The account was configured, or a session added it that had logged in with an
account that was vouched for by then. -/
inductive Vouched (users : List (CString × CString)) : List (ℕ × Served) → Account → Prop
  | configured {h : List (ℕ × Served)} {a : Account} (hin : Configured users a) :
      Vouched users h a
  | added {h pre post : List (ℕ × Served)} {j : ℕ} {r : Served} {a b : Account}
      (hsplit : h = pre ++ (j, r) :: post) (hadds : Adds r a) (hlogin : LoggedIn pre j b)
      (hby : Vouched users pre b) : Vouched users h a

variable {users : List (CString × CString)} {ntop : List UInt8 → Option (List UInt8)}
  {p p' : Process} {c c' : Conn} {m m' : MonSession} {h t : List (ℕ × Served)} {a : Account} {j : ℕ}

theorem LoggedIn.append (hin : LoggedIn h j a) (t : List (ℕ × Served)) :
    LoggedIn (h ++ t) j a := by
  obtain ⟨r, hr, hlogin⟩ := hin
  exact ⟨r, List.mem_append_left t hr, hlogin⟩

theorem Vouched.append (hin : Vouched users h a) (t : List (ℕ × Served)) :
    Vouched users (h ++ t) a := by
  cases hin with
  | configured hin => exact .configured hin
  | @added _ pre post j r _ b hsplit hadds hlogin hby =>
    have hlonger : h ++ t = pre ++ (j, r) :: (post ++ t) := by
      rw [hsplit, List.append_assoc, List.cons_append]
    exact .added hlonger hadds hlogin hby

/-- Without a configured account nobody is vouched for. -/
theorem not_vouched_nil : ¬ Vouched [] h a := by
  intro hin
  induction hin with
  | configured hin =>
    obtain ⟨user, hmem, -⟩ := hin
    cases hmem
  | added _ _ _ _ ih => exact ih

/-- The gate of every connection of a process. -/
theorem ran_gate (h : Ran c) :
    (∀ pre call post, c.trace = pre ++ call :: post → Privileged call → ∃ l, Gate l pre) ∧
      (c.relayStarted = false ∧ (∀ call ∈ c.trace, ¬ Starts call) ∨
        ∃ l port, AuthGate.Logged l port c) := by
  obtain ⟨fd, table, es, hrun⟩ := h
  exact AuthGate.phase_gate (Lifetime.phase_run hrun)

section Accounts

variable {t : Table} {name pass : List UInt8}

/-- The table stands for some accounts. -/
def Represented (t : Table) : Prop := ∃ m, Represents t m

theorem Represented.lookup_iff (h : Represented t) :
    userTableLookup t name pass = true ↔ (name, pass) ∈ credentials t := by
  obtain ⟨m, hrep⟩ := h
  rw [hrep.lookup, hrep.mem_iff]

theorem Represented.add (h : Represented t) (hname : 0 ∉ name) (hpass : 0 ∉ pass) :
    Represented (userTableAdd t name pass).2 ∧
      ∀ a ∈ credentials (userTableAdd t name pass).2, a ∈ credentials t ∨
        a = (name, pass) ∧ (userTableAdd t name pass).1 = true := by
  obtain ⟨m, hrep⟩ := h
  by_cases hadd : Addable m name pass
  · obtain ⟨hdone, hrep'⟩ := hrep.add hname hpass hadd
    refine ⟨⟨_, hrep'⟩, fun a ha => ?_⟩
    have hcases := (AddUserStatus.credentials_add hrep hname hpass hadd a.1 a.2).mp ha
    exact hcases.imp_right fun heq => ⟨Prod.ext heq.1 heq.2, hdone⟩
  · rw [hrep.add_refused hadd]
    exact ⟨⟨m, hrep⟩, fun a ha => Or.inl ha⟩

theorem Represented.remove (h : Represented t) (name : List UInt8) :
    Represented (userTableRemove t name).2 ∧
      ∀ a ∈ credentials (userTableRemove t name).2, a ∈ credentials t := by
  obtain ⟨m, hrep⟩ := h
  by_cases hname : name ∈ m
  · have herased := (hrep.remove hname).2
    refine ⟨⟨_, herased⟩, fun a ha => ?_⟩
    have hlookup := (herased.mem_iff a.1 a.2).mp ha
    by_cases hsame : a.1 = name
    · rw [hsame, Finmap.lookup_erase] at hlookup
      cases hlookup
    · rw [Finmap.lookup_erase_ne hsame] at hlookup
      exact (hrep.mem_iff a.1 a.2).mpr hlookup
  · rw [hrep.remove_refused hname]
    exact ⟨⟨m, hrep⟩, fun a ha => ha⟩

/-- What main makes of the command line. -/
theorem configured_init (users : List (CString × CString)) :
    Represented (processInit users).server.users ∧
      ∀ a ∈ credentials (processInit users).server.users, Configured users a := by
  induction users using List.reverseRecOn with
  | nil =>
    refine ⟨⟨∅, .init⟩, fun a ha => ?_⟩
    have hnone := (Represents.init.mem_iff a.1 a.2).mp ha
    rw [Finmap.lookup_empty] at hnone
    cases hnone
  | append_singleton users user ih =>
    have heq : (processInit (users ++ [user])).server.users =
        (userTableAdd (processInit users).server.users user.1.val user.2.val).2 := by
      simp [processInit, ServerCall.run]
    obtain ⟨hrep, hmem⟩ := ih.1.add user.1.property user.2.property
    rw [heq]
    refine ⟨hrep, fun a ha => ?_⟩
    rcases hmem a ha with ha | ⟨rfl, -⟩
    · obtain ⟨other, hother, rfl⟩ := ih.2 a ha
      exact ⟨other, List.mem_append_left _ hother, rfl⟩
    · exact ⟨user, List.mem_append_right _ List.mem_cons_self, rfl⟩

end Accounts

section Requests

variable {r : Served} {s : Server} {auth : Bool}

theorem zero_not_mem_account (r : Served) : 0 ∉ (accountOf r).1 ∧ 0 ∉ (accountOf r).2 :=
  ⟨CredentialCheck.zero_not_mem_cString _, CredentialCheck.zero_not_mem_cString _⟩

/-- A request brings in the account of its arguments at most. -/
theorem effect_accounts (h : Effect r s auth) (hrep : Represented r.server.users) :
    Represented s.users ∧ ∀ a ∈ credentials s.users, a ∈ credentials r.server.users ∨ Adds r a := by
  cases h with
  | kept => exact ⟨hrep, fun a ha => Or.inl ha⟩
  | login => exact ⟨hrep, fun a ha => Or.inl ha⟩
  | added hcmd hargs hauth =>
    obtain ⟨hname, hpass⟩ := zero_not_mem_account r
    obtain ⟨hadded, hmem⟩ := hrep.add hname hpass
    refine ⟨hadded, fun a ha => (hmem a ha).imp_right ?_⟩
    rintro ⟨rfl, hdone⟩
    exact ⟨hcmd, hargs, hauth, rfl, hdone⟩
  | removed hcmd hauth =>
    have hremoved := hrep.remove (firstArg r.request)
    exact ⟨hremoved.1, fun a ha => Or.inl (hremoved.2 a ha)⟩

/-- Whoever is logged in was so before or has an account. -/
theorem effect_login (h : Effect r s auth) (hrep : Represented r.server.users)
    (hauth : auth = true) : r.authenticated = true ∨ LogsIn r (accountOf r) := by
  cases h with
  | kept => exact Or.inl hauth
  | login hcmd hargs hfound => exact Or.inr ⟨hcmd, hargs, rfl, hrep.lookup_iff.mp hfound⟩
  | added => exact Or.inl hauth
  | removed => exact Or.inl hauth

end Requests

section Invariant

/-- Everything that opens the proxy to somebody is vouched for: the accounts in
the table, the logins of the sessions and the lookups that found a client. -/
structure Accountable (users : List (CString × CString)) (p : Process) : Prop where
  parts : Parts p
  represented : Represented p.server.users
  accounts : ∀ a ∈ credentials p.server.users, Vouched users p.executed a
  sessions : ∀ (j : ℕ) (m : MonSession), p.sessions[j]? = some m → m.conn.authenticated = true →
    ∃ a, LoggedIn p.executed j a
  logins : ∀ j a, LoggedIn p.executed j a → Vouched users p.executed a
  conns : ∀ c ∈ p.conns, ∀ t name pass, .lookup t name pass ∈ c.trace →
    userTableLookup t name pass = true → Vouched users p.executed (name, pass)

theorem accountable_init (users : List (CString × CString)) :
    Accountable users (processInit users) where
  parts := parts_init users
  represented := (configured_init users).1
  accounts := fun a ha => .configured ((configured_init users).2 a ha)
  sessions := by simp [processInit]
  logins := by
    rintro j a ⟨r, hr, -⟩
    cases hr
  conns := by simp [processInit]

/-- Log entries leave the user table alone. -/
theorem log_calls (l : List Access) (s : Server) :
    ((l.map ServerCall.addAccess).foldl ServerCall.run s).log = l.foldl accessLogAdd s.log ∧
      ((l.map ServerCall.addAccess).foldl ServerCall.run s).users = s.users := by
  induction l generalizing s with
  | nil => exact ⟨rfl, rfl⟩
  | cons a l ih => exact ih (ServerCall.run s (.addAccess a))

/-- A handler that finds its client finds it in the table. -/
theorem Accountable.connect (h : Accountable users p) {i : ℕ} {e : Event}
    (hi : p.conns[i]? = some c) (htable : onTable e = false) (hstep : Step c e c')
    (l : List Access) : Accountable users (p.advance i l c') := by
  have hc := List.mem_of_getElem? hi
  have hparts := h.parts.connect hi htable hstep
  have husers : ((l.map ServerCall.addAccess).foldl ServerCall.run p.server).users =
      p.server.users := (log_calls l p.server).2
  refine ⟨hparts l, ?_, ?_, ?_, h.logins, ?_⟩
  · exact husers.symm ▸ h.represented
  · exact fun a ha => h.accounts a (husers ▸ ha)
  · intro j m hj hauth
    obtain ⟨n, hn, rfl⟩ := Option.map_eq_some_iff.mp ((List.getElem?_map ..).symm.trans hj)
    exact h.sessions j n hn hauth
  intro k hk t name pass hmem hfound
  obtain ⟨n, hn, rfl⟩ := List.mem_map.mp hk
  rcases List.mem_or_eq_of_mem_set hn with hn | rfl
  · exact h.conns n hn t name pass hmem hfound
  obtain ⟨-, u, hu, hlooked⟩ := handle_consults htable hstep.2
  have hmem' : Kernel.Call.lookup t name pass ∈ c.trace ++ u := hu ▸ hmem
  rcases List.mem_append.mp hmem' with hmem | hmem
  · exact h.conns c hc t name pass hmem hfound
  · rw [hlooked t name pass hmem, h.parts.shared.conns c hc] at hfound
    exact h.accounts _ (h.represented.lookup_iff.mp hfound)

/-- What a session has executed is behind everything that was. -/
theorem serve_executed (p : Process) (j : ℕ) (m m' : MonSession) :
    (p.serve j m m').executed = p.executed ++ (newlyServed m m').map (Prod.mk j) := rfl

/-- The other sessions are as they were. -/
theorem serve_sessions (hj : p.sessions[j]? = some m) {k : ℕ} {n : MonSession}
    (hn : (p.serve j m m').sessions[k]? = some n) :
    (k = j ∧ n.conn = m'.conn) ∨ ∃ n', p.sessions[k]? = some n' ∧ n.conn = n'.conn := by
  have hmap : ((p.sessions.set j m').map fun n => { n with server := m'.server })[k]? = some n := hn
  rw [List.getElem?_map] at hmap
  obtain ⟨n', hn', rfl⟩ := Option.map_eq_some_iff.mp hmap
  by_cases hk : j = k
  · subst hk
    rw [List.getElem?_set_self (List.getElem?_eq_some_iff.mp hj).1] at hn'
    obtain rfl := Option.some.inj hn'
    exact Or.inl ⟨rfl, rfl⟩
  · rw [List.getElem?_set_ne hk] at hn'
    exact Or.inr ⟨n', hn', rfl⟩

/-- A session adds an account only when it is logged in, and logs in only with an
account of the table. -/
theorem Accountable.serve (h : Accountable users p) {e : MonEvent}
    (hj : p.sessions[j]? = some m) (he : isElsewhere e = false) (hstep : monStep m e = some m') :
    Accountable users (p.serve j m m') := by
  have hserver := h.parts.shared.sessions m (List.mem_of_getElem? hj)
  have hlater : ∀ {a : Account}, Vouched users p.executed a →
      Vouched users (p.serve j m m').executed a := fun hin => hin.append _
  have hlogged : ∀ {k : ℕ} {n : MonSession}, p.sessions[k]? = some n →
      n.conn.authenticated = true → ∃ a, LoggedIn (p.serve j m m').executed k a := by
    intro k n hn hauth
    obtain ⟨a, hlogin⟩ := h.sessions k n hn hauth
    exact ⟨a, hlogin.append _⟩
  have hconns : ∀ c ∈ (p.serve j m m').conns, ∀ t name pass, .lookup t name pass ∈ c.trace →
      userTableLookup t name pass = true →
        Vouched users (p.serve j m m').executed (name, pass) := by
    intro c hc t name pass hmem hfound
    obtain ⟨k, hk, rfl⟩ := List.mem_map.mp hc
    exact hlater (h.conns k hk t name pass hmem hfound)
  have hsessions : (m'.conn.authenticated = true → ∃ a, LoggedIn (p.serve j m m').executed j a) →
      ∀ (k : ℕ) (n : MonSession), (p.serve j m m').sessions[k]? = some n →
        n.conn.authenticated = true → ∃ a, LoggedIn (p.serve j m m').executed k a := by
    intro hown k n hn hauth
    rcases serve_sessions hj hn with ⟨rfl, hconn⟩ | ⟨n', hn', hconn⟩
    · exact hown (hconn ▸ hauth)
    · exact hlogged hn' (hconn ▸ hauth)
  cases monStep_turned he hstep with
  | idle hserved hsame hauth =>
    have hrest : (p.serve j m m').server = p.server := hsame.trans hserver
    have hnone : (p.serve j m m').executed = p.executed := by
      rw [serve_executed, newlyServed, hserved, List.drop_length]
      exact List.append_nil _
    refine ⟨h.parts.serve hj he hstep, ?_, ?_, hsessions ?_, ?_, hconns⟩
    · exact hrest.symm ▸ h.represented
    · exact fun a ha => hlater (h.accounts a (hrest ▸ ha))
    · exact fun hin => hlogged hj (hauth ▸ hin)
    · rw [hnone]
      exact h.logins
  | executed r hserved hsame hauth heffect =>
    have hnew : (p.serve j m m').executed = p.executed ++ [(j, r)] := by
      rw [serve_executed, newlyServed, hserved, List.drop_left]
      rfl
    have hrest : r.server = p.server := hsame.trans hserver
    have hrep : Represented r.server.users := hrest ▸ h.represented
    obtain ⟨hrep', hadded⟩ := effect_accounts heffect hrep
    refine ⟨h.parts.serve hj he hstep, hrep', ?_, hsessions ?_, ?_, hconns⟩
    · intro a ha
      rcases hadded a ha with ha | hadds
      · exact hlater (h.accounts a (hrest ▸ ha))
      · obtain ⟨b, hlogin⟩ := h.sessions j m hj (hauth ▸ hadds.authenticated)
        exact .added hnew hadds hlogin (h.logins j b hlogin)
    · intro hin
      rcases effect_login heffect hrep hin with hgate | hlogs
      · exact hlogged hj (hauth ▸ hgate)
      · refine ⟨accountOf r, r, ?_, hlogs⟩
        rw [hnew]
        exact List.mem_append_right _ List.mem_cons_self
    · -- the table in which AUTH finds the account is the process's own
      rintro k a ⟨r', hr', hlogs⟩
      rw [hnew] at hr'
      rcases List.mem_append.mp hr' with hr' | hr'
      · exact hlater (h.logins k a ⟨r', hr', hlogs⟩)
      · obtain ⟨rfl, rfl⟩ := Prod.mk.inj (List.mem_singleton.mp hr')
        exact hlater (h.accounts a (hrest ▸ hlogs.stored))

theorem report_spec {call : ServerCall} (h : isReport call = true) (s : Server) :
    (call.run s).users = s.users ∧ (call.run s).log = s.log := by
  cases call <;> first | exact ⟨rfl, rfl⟩ | cases h

/-- A call that leaves the user table alone. -/
theorem Accountable.report (h : Accountable users p) {call : ServerCall}
    (hsame : (call.run p.server).users = p.server.users) :
    Accountable users (p.publish (call.run p.server)) := by
  refine ⟨h.parts.publish_call call, ?_, ?_, ?_, h.logins, ?_⟩
  · exact hsame.symm ▸ h.represented
  · exact fun a ha => h.accounts a (hsame ▸ ha)
  · intro j m hj hauth
    have hmap : (p.sessions.map fun m => { m with server := call.run p.server })[j]? = some m := hj
    rw [List.getElem?_map] at hmap
    obtain ⟨n, hn, rfl⟩ := Option.map_eq_some_iff.mp hmap
    exact h.sessions j n hn hauth
  · intro c hc
    obtain ⟨k, hk, rfl⟩ := List.mem_map.mp hc
    exact h.conns k hk

theorem accountable_step {e : ProcessEvent} (h : Accountable users p)
    (hstep : ProcessStep ntop p e p') : Accountable users p' := by
  have hparts := parts_step h.parts hstep
  cases step_moved hstep with
  | accept fd =>
    refine ⟨hparts, h.represented, h.accounts, h.sessions, h.logins, fun c hc => ?_⟩
    rcases List.mem_append.mp hc with hc | hc
    · exact h.conns c hc
    · rw [List.mem_singleton.mp hc]
      intro t name pass hmem
      cases hmem
  | connection hi htable hone => exact h.connect hi htable hone _
  | monAccept =>
    refine ⟨hparts, h.represented, h.accounts, fun j m hj hauth => ?_, h.logins, h.conns⟩
    by_cases hlt : j < p.sessions.length
    · rw [List.getElem?_append_left hlt] at hj
      exact h.sessions j m hj hauth
    · rw [List.getElem?_append_right (not_lt.mp hlt)] at hj
      obtain rfl := List.mem_singleton.mp (List.mem_of_getElem? hj)
      cases hauth
  | session hj he hone => exact h.serve hj he hone
  | report hcall => exact h.report (report_spec hcall p.server).1

theorem accountable_run {es : List ProcessEvent}
    (h : Run (ProcessStep ntop) (processInit users) es p) : Accountable users p :=
  h.invariant (accountable_init users) accountable_step

/-- A step executes no request and leaves the table alone, or it executes one. -/
theorem executed_step {e : ProcessEvent} (h : Parts p) (hstep : ProcessStep ntop p e p') :
    (p'.executed = p.executed ∧ p'.server.users = p.server.users) ∨
    ∃ j r auth, p'.executed = p.executed ++ [(j, r)] ∧ r.server = p.server ∧
      Effect r p'.server auth := by
  cases step_moved hstep with
  | accept fd => exact Or.inl ⟨rfl, rfl⟩
  | connection => exact Or.inl ⟨rfl, (log_calls _ p.server).2⟩
  | monAccept => exact Or.inl ⟨rfl, rfl⟩
  | @session j m m' e hj he hone =>
    have hserver := h.shared.sessions m (List.mem_of_getElem? hj)
    cases monStep_turned he hone with
    | idle hserved hsame hauth =>
      refine Or.inl ⟨?_, congrArg Server.users (hsame.trans hserver)⟩
      rw [serve_executed, newlyServed, hserved, List.drop_length]
      exact List.append_nil _
    | executed r hserved hsame hauth heffect =>
      refine Or.inr ⟨j, r, m'.conn.authenticated, ?_, hsame.trans hserver, heffect⟩
      rw [serve_executed, newlyServed, hserved, List.drop_left]
      rfl
  | report hcall => exact Or.inl ⟨rfl, (report_spec hcall p.server).1⟩

end Invariant

/-- In any run of the process every account in the table, every account that a
session has logged in with, as each has that is logged in, and every account whose
owner was connected, looked up for, logged or relayed is vouched for. -/
theorem access_vouched {es : List ProcessEvent}
    (h : Run (ProcessStep ntop) (processInit users) es p) :
    (∀ a ∈ credentials p.server.users, Vouched users p.executed a) ∧
    (∀ j m, p.sessions[j]? = some m → m.conn.authenticated = true →
      ∃ a, LoggedIn p.executed j a) ∧
    (∀ j a, LoggedIn p.executed j a → Vouched users p.executed a) ∧
    ∀ c ∈ p.conns, ∀ pre call post, c.trace = pre ++ call :: post → Privileged call →
      ∃ l, Gate l pre ∧ Vouched users p.executed (cString l.uname, cString l.passwd) := by
  have hacc := accountable_run h
  refine ⟨hacc.accounts, hacc.sessions, hacc.logins, fun c hc pre call post hsplit hcall => ?_⟩
  obtain ⟨l, hgate⟩ := (ran_gate (hacc.parts.conns c hc)).1 pre call post hsplit hcall
  obtain ⟨t, hmem, hfound⟩ := hgate.accepted
  refine ⟨l, hgate, hacc.conns c hc t _ _ ?_ hfound⟩
  rw [hsplit]
  exact List.mem_append_left _ hmem

theorem access_vouched_passed_on : ∃ p,
    Run (ProcessStep fun _ => none) (processInit oneUser) passedOn p ∧
    ([118], [113]) ∈ credentials p.server.users ∧
    Vouched oneUser p.executed ([118], [113]) := by
  obtain ⟨p, hrun, hcredentials, -⟩ := passedOn_run
  have hin : (([118], [113]) : Account) ∈ credentials p.server.users := by simp [hcredentials]
  exact ⟨p, hrun, hin, (access_vouched hrun).1 _ hin⟩

/-- A proxy that was started without users serves nobody, and nobody can change
that: the monitoring port lets no one in who could add the first account. -/
theorem unconfigured_serves_nobody {es : List ProcessEvent}
    (h : Run (ProcessStep ntop) (processInit []) es p) :
    credentials p.server.users = [] ∧
    (∀ m ∈ p.sessions, m.conn.authenticated = false) ∧
    ∀ c ∈ p.conns, c.relayStarted = false ∧ ∀ call ∈ c.trace, ¬ Privileged call := by
  have hacc := accountable_run h
  have hprivileged : ∀ c ∈ p.conns, ∀ call ∈ c.trace, ¬ Privileged call := by
    intro c hc call hmem hcall
    obtain ⟨pre, post, hsplit⟩ := List.append_of_mem hmem
    obtain ⟨l, hgate⟩ := (ran_gate (hacc.parts.conns c hc)).1 pre call post hsplit hcall
    obtain ⟨t, hlooked, hfound⟩ := hgate.accepted
    have hin : Kernel.Call.lookup t (cString l.uname) (cString l.passwd) ∈ c.trace := by
      rw [hsplit]
      exact List.mem_append_left _ hlooked
    exact not_vouched_nil (hacc.conns c hc t _ _ hin hfound)
  refine ⟨?_, fun m hm => ?_, fun c hc => ⟨?_, hprivileged c hc⟩⟩
  · rw [List.eq_nil_iff_forall_not_mem]
    exact fun a ha => not_vouched_nil (hacc.accounts a ha)
  · obtain ⟨j, hj⟩ := List.mem_iff_getElem?.mp hm
    by_contra hauth
    obtain ⟨a, hlogin⟩ := hacc.sessions j m hj (by simpa using hauth)
    exact not_vouched_nil (hacc.logins j a hlogin)
  · rcases (ran_gate (hacc.parts.conns c hc)).2 with ⟨hrelay, -⟩ | ⟨l, port, hlogged⟩
    · exact hrelay
    · obtain ⟨pre, dest, post, atyp, address, hi, lo, htrace, -⟩ := hlogged.calls
      have hmem : Kernel.Call.startRelay ∈ c.trace := by
        rw [htrace]
        simp
      exact absurd trivial (hprivileged c hc .startRelay hmem)

theorem unconfigured_serves_nobody_asked : ∃ p,
    Run (ProcessStep fun _ => none) (processInit []) (passedOn.take 10) p ∧
    p.executed.length = 2 ∧ p.conns.length = 1 ∧ credentials p.server.users = [] := by
  have hplayed : ((passedOn.take 10).foldlM (processStep fun _ => none) (processInit [])).map
      (fun p => (p.executed.length, p.conns.length)) = some (2, 1) := by decide +kernel
  obtain ⟨p, hp, hends⟩ := Option.map_eq_some_iff.mp hplayed
  obtain ⟨hexecuted, hconns⟩ := Prod.mk.inj hends
  have hrun : Run (ProcessStep fun _ => none) (processInit []) (passedOn.take 10) p :=
    Run.of_foldlM (fun h => h) hp
  exact ⟨p, hrun, hexecuted, hconns, (unconfigured_serves_nobody hrun).1⟩

end SocksProxy.Access
