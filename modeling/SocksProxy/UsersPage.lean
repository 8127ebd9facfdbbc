import Mathlib.Data.List.Induction
import SocksProxy.Auth
import SocksProxy.PayloadReads

/-!
The page of users in users_view.c, which decodes the payloads of LIST_USERS and
GET_ACCESS_LOG by itself. It accepts what the formatters of mon_client.c accept and
reads the same entries; each user is left with the last entry under its name.
-/
namespace SocksProxy.UsersPage

open Auth BigEndian MonFormat PayloadReads

def USERS_MAX_COUNT : ℕ := 256
def MAX_CREDENTIAL_LEN : ℕ := 255
def USERS_DETAIL_LEN : ℕ := 128

/-- A row of `struct users_page_data`; its arrays are the bytes before their last NUL.
`none` is "(none)", and the text of a time is left to strftime. -/
structure PageUser where
  name : List UInt8
  password : List UInt8
  lastConnection : Option Int64
  lastDestination : List UInt8
  deriving DecidableEq

/-- What parse_user_payload stores for a name. -/
def newUser (name : List UInt8) : PageUser where
  name := name
  password := []
  lastConnection := none
  lastDestination := []

section Parse

/-- The loop of parse_user_payload. -/
def parseNames (payload : List UInt8) : ℕ → ℕ → List PageUser → Option (List PageUser × Bool)
  | 0, _, users => some (users, true)
  | n + 1, off, users =>
    if users.length < USERS_MAX_COUNT then
      if off ≥ payload.length then some (users, false)
      else do
        let nameLen ← byteAt payload off
        let off := off + 1
        if off + nameLen.toNat > payload.length then some (users, false)
        else do
          let copyLen :=
            if nameLen.toNat < MAX_CREDENTIAL_LEN then nameLen.toNat else MAX_CREDENTIAL_LEN
          let name ← bytesAt payload off copyLen
          parseNames payload n (off + nameLen.toNat) (users ++ [newUser name])
    else some (users, true)

/-- `users` is what the page held before. -/
def parseUserPayload (payload : Option (List UInt8)) (users : List PageUser) :
    Option (List PageUser × Bool) :=
  match payload with
  | none => some (users, false)
  | some bytes =>
    if bytes.length < 1 then some (users, false)
    else do
      let count ← byteAt bytes 0
      parseNames bytes count.toNat 1 []

variable {l : List UInt8} {n off : ℕ} {users : List PageUser}

/-- The names are those of mon_format_users while there is room for them. -/
theorem parseNames_eq (l : List UInt8) (n off : ℕ) (users : List PageUser)
    (hroom : users.length + n ≤ USERS_MAX_COUNT) :
    parseNames l n off users =
      some (users ++ (userRows l n off).1.map newUser, (userRows l n off).2) := by
  induction n generalizing off users with
  | zero => simp [parseNames, userRows]
  | succ n ih =>
    rw [parseNames, if_pos (by omega), userRows_succ]
    by_cases hend : nameEnd l off ≤ l.length
    · have hbyte := (l.getD off 0).toNat_lt
      rw [if_pos hend]
      unfold nameEnd at *
      have hcopy : (if (l.getD off 0).toNat < MAX_CREDENTIAL_LEN then (l.getD off 0).toNat
          else MAX_CREDENTIAL_LEN) = (l.getD off 0).toNat := by
        unfold MAX_CREDENTIAL_LEN
        split <;> omega
      rw [if_neg (by omega), byteAt_eq (by omega)]
      simp only [Option.bind_eq_bind, Option.bind_some]
      rw [if_neg (by omega), hcopy, bytesAt_eq (by omega), Option.bind_some, ih]
      · rw [List.map_cons, List.append_assoc, List.singleton_append]
      · rw [List.length_append, List.length_singleton]
        omega
    · rw [if_neg hend]
      unfold nameEnd at hend
      by_cases hbeyond : off ≥ l.length
      · rw [if_pos hbeyond]
        simp
      · rw [if_neg hbeyond, byteAt_eq (by omega)]
        simp only [Option.bind_eq_bind, Option.bind_some]
        rw [if_pos (by omega)]
        simp

theorem parseUserPayload_eq (payload : Option (List UInt8)) (users : List PageUser) :
    ∃ read, parseUserPayload payload users = some (read, (monFormatUsers payload).2) ∧
      ((monFormatUsers payload).2 = true → read = (monFormatUsers payload).1.map newUser) := by
  cases payload with
  | none => exact ⟨users, rfl, fun h => absurd h (by simp [monFormatUsers])⟩
  | some l =>
    by_cases hshort : l.length < 1
    · rw [parseUserPayload, monFormatUsers, if_pos hshort, if_pos hshort]
      exact ⟨users, rfl, fun h => absurd h (by simp)⟩
    · have hbyte := (l.getD 0 0).toNat_lt
      refine ⟨(userRows l (l.getD 0 0).toNat 1).1.map newUser, ?_, ?_⟩
      · rw [parseUserPayload, monFormatUsers, if_neg hshort, if_neg hshort, byteAt_eq (by omega)]
        refine (parseNames_eq l _ 1 [] ?_).trans ?_
        · rw [List.length_nil, USERS_MAX_COUNT]
          omega
        · rw [List.nil_append]
      · intro _
        rw [monFormatUsers, if_neg hshort]

end Parse

section LastConnections

/-- "%u". -/
def decimal (n : ℕ) : List UInt8 := (Nat.toDigits 10 n).map fun c => UInt8.ofNat c.toNat

/-- snprintf of "%.*s:%u" into an array of USERS_DETAIL_LEN bytes. -/
def destinationText (addr : List UInt8) (port : UInt16) : List UInt8 :=
  (cString addr ++ UInt8.ofNat ':'.toNat :: decimal port.toNat).take (USERS_DETAIL_LEN - 1)

/-- strlen(name) is the length of the user, and memcmp finds no difference. -/
def sameName (name user : List UInt8) : Bool :=
  (cString name).length = user.length && name.take user.length = user

/-- The two snprintf for an entry under the name of the user. -/
def PageUser.see (u : PageUser) (r : LogRow) : PageUser :=
  { u with
    lastConnection := some r.timestamp
    lastDestination := destinationText r.addr r.port }

/-- The inner loop over the users. -/
def seeRow (users : List PageUser) (r : LogRow) : List PageUser :=
  users.map fun u => if sameName u.name r.user then u.see r else u

/-- The decoding loop of fetch_user_last_connections. -/
def lastConnections (payload : List UInt8) :
    ℕ → ℕ → List PageUser → Option (List PageUser × Bool)
  | 0, _, users => some (users, true)
  | n + 1, off, users =>
    if off + 8 + 2 + 1 > payload.length then some (users, false)
    else do
      let ts ← bytesAt payload off 8
      let off := off + 8
      let port ← beU16At payload off
      let off := off + 2
      let userLen ← byteAt payload off
      let off := off + 1
      if off + userLen.toNat + 1 > payload.length then some (users, false)
      else do
        let user ← bytesAt payload off userLen.toNat
        let off := off + userLen.toNat
        let addrLen ← byteAt payload off
        let off := off + 1
        if off + addrLen.toNat > payload.length then some (users, false)
        else do
          let addr ← bytesAt payload off addrLen.toNat
          lastConnections payload n (off + addrLen.toNat)
            (seeRow users
              { timestamp := (beU64 ts).toInt64, user := user, addr := addr, port := port })

/-- fetch_user_last_connections, when the command has brought `payload`. -/
def fetchUserLastConnections (payload : Option (List UInt8)) (users : List PageUser) :
    Option (List PageUser × Bool) :=
  match payload with
  | none => some (users, false)
  | some bytes =>
    if bytes.length < 2 then some (users, false)
    else do
      let count ← beU16At bytes 0
      lastConnections bytes count.toNat 2 users

/-- The rows that the loop goes through are those of mon_format_access_log. -/
theorem lastConnections_eq (l : List UInt8) (n off : ℕ) (users : List PageUser) :
    lastConnections l n off users =
      some ((logRows l n off).1.foldl seeRow users, (logRows l n off).2) := by
  induction n generalizing off users with
  | zero => rfl
  | succ n ih =>
    rw [lastConnections, logRows_succ]
    by_cases hfixed : off + 8 + 2 + 1 > l.length
    · rw [if_pos hfixed, if_neg (by unfold rowEnd; omega)]
      rfl
    rw [if_neg hfixed, bytesAt_eq (by omega)]
    simp only [Option.bind_eq_bind, Option.bind_some]
    rw [beU16At_eq (by omega), Option.bind_some, byteAt_eq (by omega), Option.bind_some]
    by_cases huser : off + 8 + 2 + 1 + (l.getD (off + 8 + 2) 0).toNat + 1 > l.length
    · rw [if_pos huser, if_neg (by unfold rowEnd; omega)]
      rfl
    rw [if_neg huser, bytesAt_eq (by omega), Option.bind_some, byteAt_eq (by omega),
      Option.bind_some]
    by_cases hend : rowEnd l off ≤ l.length
    · rw [if_pos hend, if_neg (by unfold rowEnd at hend; omega)]
      rw [bytesAt_eq (by unfold rowEnd at hend; omega), Option.bind_some]
      exact ih (rowEnd l off) (seeRow users (rowAt l off))
    · rw [if_neg hend, if_pos (by unfold rowEnd at hend; omega)]
      rfl

/-- The user after some entries of the log have gone by. -/
def PageUser.after (u : PageUser) (rows : List LogRow) : PageUser :=
  rows.foldl (fun u r => if sameName u.name r.user then u.see r else u) u

theorem foldl_seeRow (rows : List LogRow) (users : List PageUser) :
    rows.foldl seeRow users = users.map fun u => u.after rows := by
  induction rows generalizing users with
  | nil => simp [PageUser.after]
  | cons r rows ih =>
    rw [List.foldl_cons, ih, seeRow, List.map_map]
    rfl

theorem after_append (u : PageUser) (rows : List LogRow) (r : LogRow) :
    u.after (rows ++ [r]) =
      if sameName (u.after rows).name r.user then (u.after rows).see r else u.after rows := by
  rw [PageUser.after, List.foldl_append]
  rfl

theorem after_name (u : PageUser) (rows : List LogRow) : (u.after rows).name = u.name := by
  induction rows using List.reverseRecOn with
  | nil => rfl
  | append_singleton rows r ih =>
    rw [after_append]
    split <;> exact ih

/-- Of the entries under its name the user is left with the last. -/
theorem after_eq (u : PageUser) (rows : List LogRow) :
    u.after rows = ((rows.filter fun r => sameName u.name r.user).getLast?).elim u u.see := by
  induction rows using List.reverseRecOn with
  | nil => rfl
  | append_singleton rows r ih =>
    rw [after_append, after_name, List.filter_append]
    by_cases hsame : sameName u.name r.user = true
    · rw [if_pos hsame, List.filter_singleton, hsame, cond_true, List.getLast?_concat,
        Option.elim_some, ih]
      cases (rows.filter fun r => sameName u.name r.user).getLast? <;> rfl
    · rw [if_neg hsame, List.filter_singleton, Bool.eq_false_iff.mpr hsame, cond_false,
        List.append_nil, ih]

theorem fetchUserLastConnections_eq (payload : Option (List UInt8)) (users : List PageUser) :
    fetchUserLastConnections payload users =
      some (users.map fun u => u.after (monFormatAccessLog payload).1,
        (monFormatAccessLog payload).2) := by
  cases payload with
  | none => simp [fetchUserLastConnections, monFormatAccessLog, PageUser.after]
  | some l =>
    rw [fetchUserLastConnections, monFormatAccessLog]
    by_cases hshort : l.length < 2
    · rw [if_pos hshort, if_pos hshort]
      simp [PageUser.after]
    · rw [if_neg hshort, if_neg hshort, beU16At_eq (by omega), ← foldl_seeRow]
      exact lastConnections_eq l _ 2 users

end LastConnections

/-- The formatters read only what they were given, and accept the declared number of
complete entries and nothing else. The page of users accepts the same payloads, takes
the same names, and leaves each user with the last entry under its name. -/
theorem payload_decoders_agree (payload : Option (List UInt8)) (users : List PageUser) :
    monFormatUsersAt payload = some (monFormatUsers payload) ∧
    monFormatAccessLogAt payload = some (monFormatAccessLog payload) ∧
    (∀ names, monFormatUsers payload = (names, true) ↔
      names.length ≤ 255 ∧ (∀ name ∈ names, name.length ≤ 255) ∧
      ∃ rest, payload = some (UInt8.ofNat names.length :: names.flatMap nameBytes ++ rest)) ∧
    (∀ rows, monFormatAccessLog payload = (rows, true) ↔
      rows.length < 65536 ∧ (∀ r ∈ rows, r.user.length ≤ 255 ∧ r.addr.length ≤ 255) ∧
      ∃ rest, payload =
        some (putBe (UInt64.ofNat rows.length) 2 ++ (rows.flatMap LogRow.bytes ++ rest))) ∧
    (∃ read, parseUserPayload payload users = some (read, (monFormatUsers payload).2) ∧
      ((monFormatUsers payload).2 = true → read = (monFormatUsers payload).1.map newUser)) ∧
    fetchUserLastConnections payload users =
      some (users.map fun u =>
          (((monFormatAccessLog payload).1.filter fun r => sameName u.name r.user).getLast?).elim
            u u.see,
        (monFormatAccessLog payload).2) := by
  refine ⟨monFormatUsersAt_eq payload, monFormatAccessLogAt_eq payload,
    fun _ => monFormatUsers_iff, fun _ => monFormatAccessLog_iff,
    parseUserPayload_eq payload users, ?_⟩
  rw [fetchUserLastConnections_eq]
  simp only [after_eq]

end SocksProxy.UsersPage
