import SocksProxy.Interests
import SocksProxy.UserMap
import Mathlib.Data.List.TakeWhile

/-!
The decision of auth_read. The parser counts the bytes of UNAME and PASSWD but
leaves C strings behind, and the table compares with strcmp, so a field counts
up to its first zero byte only.
-/
namespace SocksProxy.CredentialCheck

open ByteBuffer ByteScan Hello Auth Request UserTable Kernel Stm ConnState Connection
open Stages Dialing Reading LoginReads Lifetime Interests Runs UserMap

variable {c c' : Conn} {sys : Sys} {t : Table} {u w : List UInt8}

/-- Some active entry has this name and this password. -/
def Registered (t : Table) (name pass : List UInt8) : Prop :=
  ∃ e ∈ t.entries.toList, e.active = true ∧ cString e.name.toList = name ∧
    cString e.pass.toList = pass

/-- The decision that the message asks for. -/
def Exact (status : UInt8) (t : Table) (uname passwd : List UInt8) : Prop :=
  status = AUTH_STATUS_SUCCESS ↔ Registered t uname passwd

/-- What was sent is what strcmp sees, or strcmp sees nobody. -/
def Faithful (t : Table) (uname passwd : List UInt8) : Prop :=
  (0 ∉ uname ∧ 0 ∉ passwd) ∨ ¬ Registered t (cString uname) (cString passwd)

section Strings

theorem zero_not_mem_cString (l : List UInt8) : 0 ∉ cString l := by
  intro hmem
  have hzero := List.mem_takeWhile_imp hmem
  simp at hzero

theorem registered_iff_mem : Registered t u w ↔ (u, w) ∈ credentials t := by
  rw [credentials, List.mem_map]
  constructor
  · rintro ⟨e, he, hactive, hname, hpass⟩
    exact ⟨e, List.mem_filter.mpr ⟨he, hactive⟩, by rw [account, hname, hpass]⟩
  · rintro ⟨e, he, haccount⟩
    obtain ⟨hin, hactive⟩ := List.mem_filter.mp he
    obtain ⟨hname, hpass⟩ := Prod.mk.inj haccount
    exact ⟨e, hin, hactive, hname, hpass⟩

/-- user_table_lookup in a table that calls have made. -/
theorem lookup_iff (h : Reached t) : userTableLookup t u w = true ↔ Registered t u w := by
  obtain ⟨m, hrep⟩ := h.represents
  rw [hrep.lookup, registered_iff_mem, hrep.mem_iff]

/-- Nobody is registered under a name or a password with a zero byte. -/
theorem Registered.zero_free (h : Registered t u w) : 0 ∉ u ∧ 0 ∉ w := by
  obtain ⟨e, -, -, rfl, rfl⟩ := h
  exact ⟨zero_not_mem_cString _, zero_not_mem_cString _⟩

/-- The answer that looks at the C strings is exact in these cases and no other. -/
theorem exact_iff (h : Reached t) :
    Exact (authStatusOf (userTableLookup t (cString u) (cString w))) t u w ↔ Faithful t u w := by
  have hstatus : authStatusOf (userTableLookup t (cString u) (cString w)) = AUTH_STATUS_SUCCESS ↔
      Registered t (cString u) (cString w) := by
    rw [← lookup_iff h]
    cases userTableLookup t (cString u) (cString w) with
    | true => simp [authStatusOf]
    | false => simp [authStatusOf, AUTH_STATUS_FAILURE, AUTH_STATUS_SUCCESS]
  rw [Exact, hstatus, Faithful]
  by_cases hzero : 0 ∉ u ∧ 0 ∉ w
  · rw [cString_eq_self hzero.1, cString_eq_self hzero.2]
    simp [hzero]
  · have hnot : ¬ Registered t u w := fun hreg => hzero hreg.zero_free
    simp [hnot, hzero]

/-- No two messages with the same bytes have different fields. -/
theorem authMessage_inj {u' w' : List UInt8} (hu : u.length ≤ 255) (hu' : u'.length ≤ 255)
    (h : authMessage u w = authMessage u' w') : u = u' ∧ w = w' := by
  simp only [authMessage, List.cons.injEq, true_and] at h
  obtain ⟨hcount, hfields⟩ := h
  have hlen : u.length = u'.length := by
    have hnat := congrArg UInt8.toNat hcount
    rw [UInt8.toNat_ofNat', UInt8.toNat_ofNat'] at hnat
    omega
  obtain ⟨hname, hpass⟩ := List.append_inj hfields hlen
  exact ⟨hname, (List.cons.inj hpass).2⟩

end Strings

/-- A connection that reads in AUTH_READ is in the stage of that name. -/
theorem auth_stage {fd : ℕ} {users : Table} {es : List Event}
    (h : Run Step (socks5Init fd users) es c) (hstate : c.current = some .authRead)
    (hen : Enabled c (.clientRead sys)) :
    ∃ methods seen, methods.length ≤ 255 ∧ Fits (.auth methods seen) c := by
  have hphase := phase_run h
  obtain ⟨i, hi, -⟩ := hen
  have hopen : c.closing = false := by
    by_contra hclosing
    have hclosed := closed_of_closing hphase (by simpa using hclosing)
    exact absurd (hclosed.clientItem_eq.symm.trans hi) (by simp)
  have hrelay : c.relayStarted = false := by
    by_contra hstarted
    obtain ⟨t, -, hrel⟩ := relaying_of_open hphase hopen (by simpa using hstarted)
    exact absurd (hrel.running.current_eq.symm.trans hstate) (by simp)
  obtain ⟨s, hfits, hist⟩ := fits_of_open hphase hopen hrelay
  have hs : s.state = .authRead := by
    rw [← fits_stateOf hfits, stateOf, hstate]
    rfl
  cases s with
  | auth methods seen => exact ⟨methods, seen, hist.past.1, hfits⟩
  | _ => simp [Stage.state] at hs

/-- auth_read on new bytes, in a run with any chunks before. When what the
client has sent is a hello and a message with these fields, the connection
answers, and the answer is exact if and only if the condition holds. -/
theorem credential_decision {fd : ℕ} {users : Table} {es : List Event}
    {methods r : List UInt8} (hrun : Run Step (socks5Init fd users) es c)
    (hreached : Reached c.users) (hstate : c.current = some .authRead)
    (hstep : Step c (.clientRead sys) c')
    (hnew : received .client c'.trace ≠ received .client c.trace)
    (hmethods : methods.length ≤ 255) (hu : u.length ≤ 255) (hw : w.length ≤ 255)
    (hsent : received .client c'.trace = helloMessage methods ++ (authMessage u w ++ r)) :
    c'.current = some .authWrite ∧
      (Exact c'.authStatus c.users u w ↔ Faithful c.users u w) := by
  obtain ⟨hen, heq⟩ := hstep
  obtain ⟨methods', seen, hmethods', hfits⟩ := auth_stage hrun hstate hen
  have hread : socksv5Read sys c = some c' := heq
  have hlog : ∀ call : Call, received .client (c.log call).trace =
      received .client c.trace ++ call.received .client := by
    intro call
    simp [Conn.log]
  rcases socksv5Read_cases sys hfits rfl with ⟨hr, hnone⟩ | ⟨-, harr, hnone⟩ |
    ⟨l, hl, hne, harr, hsome⟩
  · -- nothing was there to read
    rw [hnone, Option.some.injEq] at hread
    refine absurd ?_ hnew
    rw [← hread, hlog]
    simp [readCall, Call.received, hr]
  · obtain ⟨v, hv, hclose⟩ := closed_calls (c.log (readCall c sys))
    rw [hnone, Option.some.injEq] at hread
    refine absurd ?_ hnew
    have hsilent : received .client v = [] := by
      rw [received, List.flatMap_eq_nil_iff]
      intro call hmem
      obtain ⟨side, rfl⟩ := hclose call hmem
      rfl
    have hempty : (readCall c sys).received .client = [] := harr
    rw [← hread, hv, received_append, hlog, hempty, hsilent, List.append_nil, List.append_nil]
  have hbytes := filled_read hl hfits harr
  obtain ⟨c₁, hc₁, hres⟩ := auth_read hl hfits hne harr
  rw [hsome, hc₁, Option.some.injEq] at hread
  subst hread
  -- the bytes after the hello are those that the parser has seen and the buffer holds
  have hafter : ∀ v : List Call, c₁.trace = c.trace ++ v →
      received .client (c.trace ++ v) =
        helloMessage methods' ++ (seen ++ (bufferReadPtr c.readBuffer ++ l)) →
      seen ++ (bufferReadPtr c.readBuffer ++ l) = authMessage u w ++ r := by
    intro v hv hall
    rw [← hv, hsent] at hall
    exact ((hello_ends_message onHelloMethod helloStart hmethods).unique
      (hello_ends_message onHelloMethod helloStart hmethods') hall).2.symm
  have hfilled : received .client (c.trace ++ [readCall c sys]) =
      helloMessage methods' ++ (seen ++ (bufferReadPtr c.readBuffer ++ l)) := by
    rw [← List.append_assoc (helloMessage methods')]
    exact hbytes
  have hends := (auth_ends_message authParserZero hu hw).1
  rcases hres with ⟨hseen, htrace, -⟩ | ⟨x, r', hx, hsplit, hbroken⟩ |
    ⟨u', w', r', accepted, hu', hw', hsplit, hlookup, htrace, hfits', -⟩
  · -- the message would still be incomplete
    rw [hafter _ htrace hfilled] at hseen
    exact absurd hends hseen.not_ends
  · -- the first byte would have been rejected
    obtain ⟨v, hv, hclose⟩ := hbroken.trace_eq
    have hsilent : received .client v = [] := by
      rw [received, List.flatMap_eq_nil_iff]
      intro call hmem
      obtain ⟨side, rfl⟩ := hclose call hmem
      rfl
    rw [hafter ([readCall c sys] ++ v) (by rw [hv, List.append_assoc])
      (by rw [← List.append_assoc, received_append, hsilent, List.append_nil, hfilled])] at hsplit
    exact absurd (List.cons.inj hsplit).1.symm hx
  · have hcalls : received .client (c.trace ++
        [readCall c sys, .lookup c.users (cString u') (cString w')]) =
        helloMessage methods' ++ (seen ++ (bufferReadPtr c.readBuffer ++ l)) := by
      rw [← hfilled]
      simp [Call.received]
    have hmsg := hafter _ htrace hcalls
    rw [hsplit] at hmsg
    have hsame := ((auth_ends_message authParserZero hu' hw').1.unique hends hmsg).1
    obtain ⟨rfl, rfl⟩ := authMessage_inj hu' hu hsame
    refine ⟨hfits'.parsed.1, ?_⟩
    rw [hfits'.parsed.2.1, ← hlookup]
    exact exact_iff hreached

section Sessions

set_option maxRecDepth 20000 in
/-- Nobody has touched the table; comparing its entries one by one would take long. -/
private theorem session_users :
    (replay accepted [arrives helloBytes, flushes]).map Conn.users = some accepted.users := rfl

/-- A client whose hello was answered sends `bytes` in AUTH_READ. -/
private theorem session (bytes : List UInt8) (status : UInt8)
    (h : ((replay accepted [arrives helloBytes, flushes]).bind fun c =>
        (dispatch c (arrives bytes)).map fun c' =>
          (decide (c.current = some .authRead), received .client c.trace,
            received .client c'.trace, c'.authStatus)) =
      some (true, helloBytes, helloBytes ++ bytes, status)) :
    ∃ c c', Run Step accepted [arrives helloBytes, flushes] c ∧ Step c (arrives bytes) c' ∧
      Reached c.users ∧ c.current = some .authRead ∧ received .client c.trace = helloBytes ∧
      received .client c'.trace = helloBytes ++ bytes ∧ c'.authStatus = status := by
  obtain ⟨c, hc, hnext⟩ := Option.bind_eq_some_iff.mp h
  obtain ⟨c', hc', hvals⟩ := Option.map_eq_some_iff.mp hnext
  simp only [Prod.mk.injEq, decide_eq_true_eq] at hvals
  obtain ⟨hstate, hbefore, hafter, hstatus⟩ := hvals
  have husers := session_users
  rw [hc, Option.map_some, Option.some.injEq] at husers
  have hreached : Reached c.users := by
    rw [husers]
    exact ⟨[.add ⟨[117], by decide⟩ ⟨[112], by decide⟩], rfl⟩
  exact ⟨c, c', replay_run hc, step_of_dispatch hc', hreached, hstate, hbefore, hafter, hstatus⟩

theorem credential_decision_user : ∃ c c', Run Step accepted [arrives helloBytes, flushes] c ∧
    Step c (arrives authBytes) c' ∧ c'.current = some .authWrite ∧
      (Exact c'.authStatus c.users [117] [112] ↔ Faithful c.users [117] [112]) := by
  obtain ⟨c, c', hrun, hstep, hreached, hstate, hbefore, hafter, -⟩ :=
    session authBytes 0 (by decide +kernel)
  have hnew : received .client c'.trace ≠ received .client c.trace := by
    rw [hbefore, hafter]
    decide
  have hsent : received .client c'.trace =
      helloMessage [2] ++ (authMessage [117] [112] ++ []) := hafter
  exact ⟨c, c', hrun, hstep, credential_decision hrun hreached hstate hstep hnew (by decide)
    (by decide) (by decide) hsent⟩

/-- UNAME `u`, a zero byte and `x`: nobody has this name, and `u` is let in. -/
theorem zero_byte_accepted : ∃ c c', Run Step accepted [arrives helloBytes, flushes] c ∧
    Step c (arrives (authMessage [117, 0, 120] [112])) c' ∧ Reached c.users ∧
      c.current = some .authRead ∧
      received .client c'.trace = helloMessage [2] ++ authMessage [117, 0, 120] [112] ∧
      ¬ Exact c'.authStatus c.users [117, 0, 120] [112] := by
  obtain ⟨c, c', hrun, hstep, hreached, hstate, -, hafter, hstatus⟩ :=
    session (authMessage [117, 0, 120] [112]) 0 (by decide +kernel)
  refine ⟨c, c', hrun, hstep, hreached, hstate, hafter, ?_⟩
  intro hexact
  have hreg : Registered c.users [117, 0, 120] [112] := hexact.mp hstatus
  exact absurd hreg.zero_free.1 (by decide)

end Sessions

end SocksProxy.CredentialCheck
