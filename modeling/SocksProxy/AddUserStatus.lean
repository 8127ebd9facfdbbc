import SocksProxy.ResponseFrames
import SocksProxy.CredentialCheck

/-!
What the status of ADD_USER tells the administrator. user_table_add answers a
boolean, and mon_process_request takes every refusal for a name that is taken.
-/
namespace SocksProxy.AddUserStatus

open ByteBuffer ByteScan Auth UserTable MonProtocol MonParsing MonServer ResponseFrames UserMap
open CredentialCheck

variable {t t' : Table} {m : Accounts} {args : List (List UInt8)} {name pass : List UInt8}

/-- The pair is new in the table and the only one that is. -/
def Added (t t' : Table) (name pass : List UInt8) : Prop :=
  name ∉ userNames t ∧
    ∀ n w, (n, w) ∈ credentials t' ↔ (n, w) ∈ credentials t ∨ n = name ∧ w = pass

/-- What the status says is what happened to the table. -/
structure Truthful (t t' : Table) (args : List (List UInt8)) (status : UInt8) : Prop where
  ok_iff : status = MON_STATUS_OK ↔
    ∃ name pass rest, args = name :: pass :: rest ∧ Added t t' name pass
  exists_iff : status = MON_STATUS_USER_EXISTS ↔
    ∃ name pass rest, args = name :: pass :: rest ∧ name ∈ userNames t
  unchanged : status ≠ MON_STATUS_OK → t' = t

/-- An argument is missing, the name is taken, or the account can be added as it
was sent. -/
def Settled (t : Table) : List (List UInt8) → Prop
  | name :: pass :: _ => name ∈ userNames t ∨
      0 ∉ name ∧ 0 ∉ pass ∧ name ≠ [] ∧ pass ≠ [] ∧ (userNames t).length < MAX_USERS
  | _ => True

section Table

theorem names_length (h : Represents t m) : (userNames t).length = m.keys.card := by
  rw [h.card_eq, h.count_eq, userNames, List.length_map]

/-- A name that is taken has no zero byte. -/
theorem taken_eq (h : name ∈ userNames t) : cString name = name := by
  obtain ⟨e, -, rfl⟩ := List.mem_map.mp h
  exact cString_eq_self (zero_not_mem_cString _)

/-- Whoever can be added as a C string, and is what was sent, can be added. -/
theorem addable_iff (h : Represents t m) (hname : name.length ≤ 255) (hpass : pass.length ≤ 255)
    (hsame : cString name = name ∧ cString pass = pass) :
    Addable m (cString name) (cString pass) ↔ name ∉ userNames t ∧ name ≠ [] ∧ pass ≠ [] ∧
      (userNames t).length < MAX_USERS := by
  rw [hsame.1, hsame.2, names_length h, h.mem_names, Addable, Fits, Fits, ← List.length_pos_iff,
    ← List.length_pos_iff]
  unfold MAX_CRED_LEN
  constructor
  · rintro ⟨hn, hp, hnew, hroom⟩
    exact ⟨hnew, by omega, by omega, hroom⟩
  · rintro ⟨hnew, hn, hp, hroom⟩
    exact ⟨by omega, by omega, hnew, hroom⟩

/-- The credentials after an account was added. -/
theorem credentials_add (h : Represents t m) (hname : 0 ∉ name) (hpass : 0 ∉ pass)
    (hadd : Addable m name pass) (n w : List UInt8) :
    (n, w) ∈ credentials (userTableAdd t name pass).2 ↔
      (n, w) ∈ credentials t ∨ n = name ∧ w = pass := by
  rw [(h.add hname hpass hadd).2.mem_iff, h.mem_iff]
  by_cases hn : n = name
  · subst hn
    rw [Finmap.lookup_insert, Finmap.lookup_eq_none.mpr hadd.2.2.1]
    simp [eq_comm]
  · rw [Finmap.lookup_insert_of_ne _ hn]
    simp [hn]

/-- What mon_process_request makes of the two strings. -/
def statusOf (t : Table) (name pass : List UInt8) : UInt8 :=
  if (userTableAdd t name pass).1 then MON_STATUS_OK else MON_STATUS_USER_EXISTS

theorem mem_names_of_credentials (h : (name, pass) ∈ credentials t) : name ∈ userNames t := by
  rw [userNames_eq]
  exact List.mem_map_of_mem h

/-- With both arguments there, the status is truthful in these cases only. -/
theorem truthful_iff (h : Represents t m) {rest : List (List UInt8)} (hname : name.length ≤ 255)
    (hpass : pass.length ≤ 255) :
    Truthful t (userTableAdd t (cString name) (cString pass)).2 (name :: pass :: rest)
        (statusOf t (cString name) (cString pass)) ↔ Settled t (name :: pass :: rest) := by
  have hargs : ∀ P : List UInt8 → List UInt8 → Prop,
      (∃ n w r, name :: pass :: rest = n :: w :: r ∧ P n w) ↔ P name pass := by
    intro P
    constructor
    · rintro ⟨n, w, r, heq, hP⟩
      simp only [List.cons.injEq] at heq
      obtain ⟨rfl, rfl, rfl⟩ := heq
      exact hP
    · intro hP
      exact ⟨name, pass, rest, rfl, hP⟩
  have hne : MON_STATUS_USER_EXISTS ≠ MON_STATUS_OK := by decide
  by_cases hadd : Addable m (cString name) (cString pass)
  · have hok := (h.add (zero_not_mem_cString name) (zero_not_mem_cString pass) hadd).1
    have hcred := credentials_add h (zero_not_mem_cString name) (zero_not_mem_cString pass) hadd
    have hstatus : statusOf t (cString name) (cString pass) = MON_STATUS_OK := by
      rw [statusOf, hok, if_pos rfl]
    rw [hstatus]
    constructor
    · intro htrue
      obtain ⟨hnew, hpair⟩ := (hargs _).mp (htrue.ok_iff.mp rfl)
      have hmem := (hpair name pass).mpr (Or.inr ⟨rfl, rfl⟩)
      rcases (hcred name pass).mp hmem with hold | ⟨hn, hp⟩
      · exact absurd (mem_names_of_credentials hold) hnew
      · obtain ⟨-, hn0, hp0, hroom⟩ := (addable_iff h hname hpass ⟨hn.symm, hp.symm⟩).mp hadd
        refine Or.inr ⟨?_, ?_, hn0, hp0, hroom⟩
        · rw [hn]
          exact zero_not_mem_cString _
        · rw [hp]
          exact zero_not_mem_cString _
    · intro hsettled
      have hnew : name ∉ userNames t := by
        intro htaken
        have hfresh := hadd.2.2.1
        rw [taken_eq htaken, ← h.mem_names] at hfresh
        exact hfresh htaken
      have hplain : 0 ∉ name ∧ 0 ∉ pass := by
        rcases hsettled with htaken | ⟨hn, hp, -⟩
        · exact absurd htaken hnew
        · exact ⟨hn, hp⟩
      rw [cString_eq_self hplain.1, cString_eq_self hplain.2] at hcred ⊢
      constructor
      · rw [hargs]
        exact ⟨fun _ => ⟨hnew, hcred⟩, fun _ => rfl⟩
      · rw [hargs]
        exact ⟨fun heq => absurd heq.symm hne, fun htaken => absurd htaken hnew⟩
      · exact fun hother => absurd rfl hother
  · rw [h.add_refused hadd]
    have hstatus : statusOf t (cString name) (cString pass) = MON_STATUS_USER_EXISTS := by
      rw [statusOf, h.add_refused hadd]
      rfl
    rw [hstatus]
    constructor
    · intro htrue
      exact Or.inl ((hargs _).mp (htrue.exists_iff.mp rfl))
    · intro hsettled
      have htaken : name ∈ userNames t := by
        rcases hsettled with htaken | ⟨hn, hp, hn0, hp0, hroom⟩
        · exact htaken
        · by_contra hnew
          exact hadd ((addable_iff h hname hpass ⟨cString_eq_self hn, cString_eq_self hp⟩).mpr
            ⟨hnew, hn0, hp0, hroom⟩)
      constructor
      · rw [hargs]
        exact ⟨fun heq => absurd heq hne, fun hadded => absurd htaken hadded.1⟩
      · rw [hargs]
        exact ⟨fun _ => htaken, fun _ => rfl⟩
      · exact fun _ => rfl

end Table

/-- The answer of an authenticated connection to ADD_USER. -/
theorem answer_add (s : Server) (args : List (List UInt8)) :
    (∃ name pass rest, args = name :: pass :: rest ∧
      (answer s true MON_CMD_ADD_USER args).status = statusOf s.users (cString name) (cString pass) ∧
      (answer s true MON_CMD_ADD_USER args).server.users =
        (userTableAdd s.users (cString name) (cString pass)).2) ∨
    args.length < 2 ∧ (answer s true MON_CMD_ADD_USER args).status = MON_STATUS_INTERNAL_ERROR ∧
      (answer s true MON_CMD_ADD_USER args).server = s := by
  match args with
  | name :: pass :: rest => exact Or.inl ⟨name, pass, rest, rfl, rfl, rfl⟩
  | [name] => exact Or.inr ⟨by simp, rfl, rfl⟩
  | [] => exact Or.inr ⟨by simp, rfl, rfl⟩

/-- ADD_USER with any arguments, on an authenticated connection of a server with
any table: the one response carries a truthful status if and only if the
condition holds. -/
theorem add_user_truthful {s : Server} (hs : s.Reachable) (husers : Reached s.users)
    {conn : MonConn} (hauth : conn.authenticated = true) (hready : Ready conn.writeBuffer)
    (hcount : args.length ≤ MON_MAX_ARGS) (hlen : ∀ a ∈ args, a.length ≤ 255) {p : MonParser}
    (hparser : conn.parser =
      feedAll monParserFeed (monParserInit p) (monMessage MON_CMD_ADD_USER args)) :
    ∃ out, monResponseDecode (bufferReadPtr (monProcessRequest s conn).2.writeBuffer) =
        .ok out (bufferReadPtr (monProcessRequest s conn).2.writeBuffer).length ∧
      (Truthful s.users (monProcessRequest s conn).1.users args out.status ↔
        Settled s.users args) := by
  have hparsed := (mon_ends_message p MON_CMD_ADD_USER hcount hlen).2
  rw [← hparser] at hparsed
  have hresponded := monProcessRequest_answer hs.sound hready hparsed
  obtain ⟨out, hout, hstatus, -⟩ := responded_decode hresponded
  obtain ⟨wb, hserver, -⟩ := hresponded
  obtain ⟨m, hrep⟩ := husers.represents
  rw [hauth] at hstatus hserver
  refine ⟨out, hout, ?_⟩
  rw [hstatus, hserver]
  rcases answer_add s args with ⟨name, pass, rest, rfl, hcode, htable⟩ | ⟨hfew, hcode, hsame⟩
  · rw [hcode, htable]
    exact truthful_iff hrep (hlen name List.mem_cons_self)
      (hlen pass (List.mem_cons_of_mem _ List.mem_cons_self))
  · rw [hcode, hsame]
    have hnone : ∀ P : List UInt8 → List UInt8 → Prop,
        ¬ ∃ n w r, args = n :: w :: r ∧ P n w := by
      rintro P ⟨n, w, r, rfl, -⟩
      rw [List.length_cons, List.length_cons] at hfew
      omega
    have hsettled : Settled s.users args := by
      match args, hfew with
      | [], _ => trivial
      | [_], _ => trivial
    refine ⟨fun _ => hsettled, fun _ => ⟨?_, ?_, fun _ => rfl⟩⟩
    · exact ⟨fun heq => absurd heq (by decide), fun hex => absurd hex (hnone _)⟩
    · exact ⟨fun heq => absurd heq (by decide), fun hex => absurd hex (hnone _)⟩

section Requests

/-- An authenticated connection that has read ADD_USER with these arguments. -/
private def asked (args : List (List UInt8)) : MonConn :=
  { monConnInit with
    authenticated := true
    parser := feedAll monParserFeed (monParserInit monParserZero) (monMessage MON_CMD_ADD_USER args) }

private theorem reached_init : Reached serverInit.users := ⟨[], rfl⟩

private theorem ready_asked (args : List (List UInt8)) : Ready (asked args).writeBuffer :=
  ⟨bufferReadPtr_init _, bufferWritePtr_init _, bufferLimit_init _⟩

theorem add_user_truthful_new :
    ∃ out, monResponseDecode
        (bufferReadPtr (monProcessRequest serverInit (asked [[97], [98]])).2.writeBuffer) =
        .ok out
          (bufferReadPtr (monProcessRequest serverInit (asked [[97], [98]])).2.writeBuffer).length ∧
      (Truthful serverInit.users (monProcessRequest serverInit (asked [[97], [98]])).1.users
        [[97], [98]] out.status ↔ Settled serverInit.users [[97], [98]]) := by
  have hparser : (asked [[97], [98]]).parser = feedAll monParserFeed
      (monParserInit monParserZero) (monMessage MON_CMD_ADD_USER [[97], [98]]) := rfl
  have hcount : ([[97], [98]] : List (List UInt8)).length ≤ MON_MAX_ARGS := by decide
  have hlen : ∀ a ∈ ([[97], [98]] : List (List UInt8)), a.length ≤ 255 := by decide
  exact add_user_truthful ⟨[], rfl⟩ reached_init rfl (ready_asked _) hcount hlen hparser

/-- An account without a password is refused, on an empty table, with the status
of a name that is taken. -/
theorem empty_password_exists :
    (∃ out, monResponseDecode
        (bufferReadPtr (monProcessRequest serverInit (asked [[97], []])).2.writeBuffer) =
        .ok out
          (bufferReadPtr (monProcessRequest serverInit (asked [[97], []])).2.writeBuffer).length ∧
      out.status = MON_STATUS_USER_EXISTS) ∧ userNames serverInit.users = [] ∧
    ¬ Truthful serverInit.users (monProcessRequest serverInit (asked [[97], []])).1.users
      [[97], []] MON_STATUS_USER_EXISTS := by
  have hnames : userNames serverInit.users = [] := by decide +kernel
  have hdecoded : monResponseDecode
      (bufferReadPtr (monProcessRequest serverInit (asked [[97], []])).2.writeBuffer) =
      .ok ⟨MON_VERSION, MON_STATUS_USER_EXISTS, 0, none⟩ 4 ∧
      (bufferReadPtr (monProcessRequest serverInit (asked [[97], []])).2.writeBuffer).length = 4 := by
    decide +kernel
  refine ⟨⟨_, by rw [hdecoded.2]; exact hdecoded.1, rfl⟩, hnames, ?_⟩
  intro htrue
  obtain ⟨name, pass, rest, -, hmem⟩ := htrue.exists_iff.mp rfl
  rw [hnames] at hmem
  exact absurd hmem List.not_mem_nil

end Requests

end SocksProxy.AddUserStatus
