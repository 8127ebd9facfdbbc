import SocksProxy.MonFormat

/-!
The formatters of mon_client.c once more, with every read checked against the
length they are given, and what their payloads look like when they accept: the
declared number of entries, and behind them whatever the caller has left there.
-/
namespace SocksProxy.PayloadReads

open BigEndian MonProtocol MonFormat

variable {l : List UInt8} {n off k : ℕ}

section Reads

/-- payload[i]; `none` at or beyond the length. -/
def byteAt (payload : List UInt8) (i : ℕ) : Option UInt8 := payload[i]?

/-- The `n` bytes from `off` on; `none` when one is at or beyond the length. -/
def bytesAt (payload : List UInt8) (off n : ℕ) : Option (List UInt8) :=
  if off + n ≤ payload.length then some ((payload.drop off).take n) else none

theorem byteAt_eq (h : k < l.length) : byteAt l k = some (l.getD k 0) := by
  rw [byteAt, List.getD_eq_getElem?_getD, List.getElem?_eq_getElem h, Option.getD_some]

theorem bytesAt_eq (h : off + n ≤ l.length) : bytesAt l off n = some ((l.drop off).take n) :=
  if_pos h

/-- be_u16(payload + off). -/
def beU16At (payload : List UInt8) (off : ℕ) : Option UInt16 := do
  let hi ← byteAt payload off
  let lo ← byteAt payload (off + 1)
  some (beU16 hi lo)

theorem beU16At_eq (h : k + 2 ≤ l.length) :
    beU16At l k = some (beU16 (l.getD k 0) (l.getD (k + 1) 0)) := by
  rw [beU16At, byteAt_eq (by omega), byteAt_eq (by omega)]
  rfl

/-- The loop of mon_format_users. -/
def userRowsAt (payload : List UInt8) : ℕ → ℕ → Option (List (List UInt8) × Bool)
  | 0, _ => some ([], true)
  | n + 1, off =>
    if off ≥ payload.length then some ([], false)
    else do
      let nl ← byteAt payload off
      let off := off + 1
      if off + nl.toNat > payload.length then some ([], false)
      else do
        let name ← bytesAt payload off nl.toNat
        let (rows, ok) ← userRowsAt payload n (off + nl.toNat)
        some (name :: rows, ok)

def monFormatUsersAt (payload : Option (List UInt8)) : Option (List (List UInt8) × Bool) :=
  match payload with
  | none => some ([], false)
  | some bytes =>
    if bytes.length < 1 then some ([], false)
    else do
      let count ← byteAt bytes 0
      userRowsAt bytes count.toNat 1

/-- The loop of mon_format_access_log. -/
def logRowsAt (payload : List UInt8) : ℕ → ℕ → Option (List LogRow × Bool)
  | 0, _ => some ([], true)
  | n + 1, off =>
    if off + 8 + 2 + 1 > payload.length then some ([], false)
    else do
      let ts ← bytesAt payload off 8
      let off := off + 8
      let port ← beU16At payload off
      let off := off + 2
      let ul ← byteAt payload off
      let off := off + 1
      if off + ul.toNat + 1 > payload.length then some ([], false)
      else do
        let user ← bytesAt payload off ul.toNat
        let off := off + ul.toNat
        let al ← byteAt payload off
        let off := off + 1
        if off + al.toNat > payload.length then some ([], false)
        else do
          let addr ← bytesAt payload off al.toNat
          let (rows, ok) ← logRowsAt payload n (off + al.toNat)
          some
            ({ timestamp := (beU64 ts).toInt64, user := user, addr := addr, port := port } :: rows,
              ok)

def monFormatAccessLogAt (payload : Option (List UInt8)) : Option (List LogRow × Bool) :=
  match payload with
  | none => some ([], false)
  | some bytes =>
    if bytes.length < 2 then some ([], false)
    else do
      let count ← beU16At bytes 0
      logRowsAt bytes count.toNat 2

/-- No read of the loop leaves the payload. -/
theorem userRowsAt_eq (l : List UInt8) (n off : ℕ) :
    userRowsAt l n off = some (userRows l n off) := by
  induction n generalizing off with
  | zero => rfl
  | succ n ih =>
    rw [userRowsAt, userRows]
    by_cases hend : off ≥ l.length
    · rw [if_pos hend, if_pos hend]
    · rw [if_neg hend, if_neg hend, byteAt_eq (by omega)]
      simp only [Option.bind_eq_bind, Option.bind_some]
      by_cases hfit : off + 1 + (l.getD off 0).toNat > l.length
      · rw [if_pos hfit, if_pos hfit]
      · rw [if_neg hfit, if_neg hfit, bytesAt_eq (by omega), Option.bind_some, ih,
          Option.bind_some]

theorem monFormatUsersAt_eq (payload : Option (List UInt8)) :
    monFormatUsersAt payload = some (monFormatUsers payload) := by
  cases payload with
  | none => rfl
  | some l =>
    rw [monFormatUsersAt, monFormatUsers]
    by_cases hshort : l.length < 1
    · rw [if_pos hshort, if_pos hshort]
    · rw [if_neg hshort, if_neg hshort, byteAt_eq (by omega)]
      exact userRowsAt_eq l _ 1

theorem logRowsAt_eq (l : List UInt8) (n off : ℕ) :
    logRowsAt l n off = some (logRows l n off) := by
  induction n generalizing off with
  | zero => rfl
  | succ n ih =>
    rw [logRowsAt, logRows]
    by_cases hfixed : off + 8 + 2 + 1 > l.length
    · rw [if_pos hfixed, if_pos hfixed]
    · rw [if_neg hfixed, if_neg hfixed, bytesAt_eq (by omega)]
      simp only [Option.bind_eq_bind, Option.bind_some]
      rw [beU16At_eq (by omega), Option.bind_some, byteAt_eq (by omega), Option.bind_some]
      by_cases huser : off + 8 + 2 + 1 + (l.getD (off + 8 + 2) 0).toNat + 1 > l.length
      · rw [if_pos huser, if_pos huser]
      · rw [if_neg huser, if_neg huser, bytesAt_eq (by omega), Option.bind_some,
          byteAt_eq (by omega), Option.bind_some]
        generalize off + 8 + 2 + 1 + (l.getD (off + 8 + 2) 0).toNat = off' at *
        by_cases haddr : off' + 1 + (l.getD off' 0).toNat > l.length
        · rw [if_pos haddr, if_pos haddr]
        · rw [if_neg haddr, if_neg haddr, bytesAt_eq (by omega), Option.bind_some, ih,
            Option.bind_some]

theorem monFormatAccessLogAt_eq (payload : Option (List UInt8)) :
    monFormatAccessLogAt payload = some (monFormatAccessLog payload) := by
  cases payload with
  | none => rfl
  | some l =>
    rw [monFormatAccessLogAt, monFormatAccessLog]
    by_cases hshort : l.length < 2
    · rw [if_pos hshort, if_pos hshort]
    · rw [if_neg hshort, if_neg hshort, beU16At_eq (by omega)]
      exact logRowsAt_eq l _ 2

end Reads

section Accepted

theorem drop_getD (h : k < l.length) : l.drop k = l.getD k 0 :: l.drop (k + 1) := by
  rw [List.drop_eq_getElem_cons h, List.getD_eq_getElem?_getD, List.getElem?_eq_getElem h,
    Option.getD_some]

/-- A length byte and as many bytes are a name. -/
theorem drop_name (h : off + 1 + (l.getD off 0).toNat ≤ l.length) :
    ∃ name, (l.drop (off + 1)).take (l.getD off 0).toNat = name ∧
      name.length = (l.getD off 0).toNat ∧ name.length ≤ 255 ∧
      l.drop off = nameBytes name ++ l.drop (off + 1 + (l.getD off 0).toNat) := by
  have hbyte := (l.getD off 0).toNat_lt
  have hlen : ((l.drop (off + 1)).take (l.getD off 0).toNat).length = (l.getD off 0).toNat := by
    rw [List.length_take, List.length_drop]
    omega
  refine ⟨_, rfl, hlen, by omega, ?_⟩
  have hsplit := List.take_append_drop (l.getD off 0).toNat (l.drop (off + 1))
  rw [List.drop_drop] at hsplit
  rw [nameBytes, hlen, UInt8.ofNat_toNat, drop_getD (by omega), List.cons_append, hsplit]

/-- Where the next name begins. -/
def nameEnd (l : List UInt8) (off : ℕ) : ℕ := off + 1 + (l.getD off 0).toNat

/-- The two checks of a round amount to the second. -/
theorem userRows_succ (l : List UInt8) (n off : ℕ) :
    userRows l (n + 1) off =
      if nameEnd l off ≤ l.length then
        ((l.drop (off + 1)).take (l.getD off 0).toNat :: (userRows l n (nameEnd l off)).1,
          (userRows l n (nameEnd l off)).2)
      else ([], false) := by
  rw [userRows]
  by_cases hend : nameEnd l off ≤ l.length
  · rw [if_pos hend]
    unfold nameEnd at hend
    rw [if_neg (by omega), if_neg (by omega)]
    rfl
  · rw [if_neg hend]
    unfold nameEnd at hend
    by_cases hbeyond : off ≥ l.length
    · rw [if_pos hbeyond]
    · rw [if_neg hbeyond, if_pos (by omega)]

/-- What the loop reads is written in the payload. -/
theorem userRows_inv {names : List (List UInt8)} (h : userRows l n off = (names, true)) :
    names.length = n ∧ (∀ name ∈ names, name.length ≤ 255) ∧
      ∃ rest, l.drop off = names.flatMap nameBytes ++ rest := by
  induction n generalizing off names with
  | zero =>
    obtain rfl : [] = names := congrArg Prod.fst h
    exact ⟨rfl, by simp, l.drop off, rfl⟩
  | succ n ih =>
    rw [userRows_succ] at h
    split at h
    next hend =>
      obtain ⟨hcons, hok⟩ := Prod.mk.inj h
      obtain ⟨hlen, hall, rest, htail⟩ := ih (Prod.ext rfl hok)
      obtain ⟨name, hname, -, hle, hdrop⟩ := drop_name hend
      rw [hname] at hcons
      subst hcons
      refine ⟨by rw [List.length_cons, hlen], ?_, rest, ?_⟩
      · intro other hmem
        rcases List.mem_cons.mp hmem with rfl | hmem
        · exact hle
        · exact hall other hmem
      · rw [hdrop, ← nameEnd, htail, List.flatMap_cons, List.append_assoc]
    next => cases h

/-- mon_format_users returns 0 on the declared number of names, and on nothing else. -/
theorem monFormatUsers_iff {payload : Option (List UInt8)} {names : List (List UInt8)} :
    monFormatUsers payload = (names, true) ↔
      names.length ≤ 255 ∧ (∀ name ∈ names, name.length ≤ 255) ∧
      ∃ rest, payload = some (UInt8.ofNat names.length :: names.flatMap nameBytes ++ rest) := by
  constructor
  · intro h
    cases payload with
    | none => cases h
    | some l =>
      rw [monFormatUsers] at h
      split at h
      next => cases h
      next hlong =>
        obtain ⟨hlen, hall, rest, hdrop⟩ := userRows_inv h
        have hbyte := (l.getD 0 0).toNat_lt
        refine ⟨by omega, hall, rest, ?_⟩
        cases l with
        | nil => exact absurd Nat.zero_lt_one hlong
        | cons c l =>
          rw [hlen, List.getD_cons_zero, UInt8.ofNat_toNat, List.cons_append]
          rw [List.drop_one, List.tail_cons] at hdrop
          rw [hdrop]
  · rintro ⟨hcount, hall, rest, rfl⟩
    have hnat : (UInt8.ofNat names.length).toNat = names.length := by
      rw [UInt8.toNat_ofNat']
      omega
    have hrows := userRows_names names hall [UInt8.ofNat names.length] rest
    rw [List.singleton_append, List.length_singleton] at hrows
    rw [List.cons_append, monFormatUsers, if_neg (by rw [List.length_cons]; omega),
      List.getD_cons_zero, hnat]
    exact hrows

theorem putBe_beU64 {l : List UInt8} (h : l.length = 8) : putBe (beU64 l) 8 = l := by
  rw [putBe_eq _ (Nat.le_refl 8), beU64_toNat (Nat.le_of_eq h), ← h, toBytes_ofBytes]

theorem putBe_beU16 (hi lo : UInt8) : putBe (beU16 hi lo).toUInt64 2 = [hi, lo] := by
  have hbytes := toBytes_ofBytes [hi, lo]
  rw [putBe_eq _ (by decide), UInt16.toNat_toUInt64, beU16_toNat]
  simpa [ofBytes] using hbytes

/-- The entry at `off`. -/
def rowAt (l : List UInt8) (off : ℕ) : LogRow where
  timestamp := (beU64 ((l.drop off).take 8)).toInt64
  user := (l.drop (off + 8 + 2 + 1)).take (l.getD (off + 8 + 2) 0).toNat
  addr := (l.drop (off + 8 + 2 + 1 + (l.getD (off + 8 + 2) 0).toNat + 1)).take
    (l.getD (off + 8 + 2 + 1 + (l.getD (off + 8 + 2) 0).toNat) 0).toNat
  port := beU16 (l.getD (off + 8) 0) (l.getD (off + 8 + 1) 0)

/-- Where the next one begins. -/
def rowEnd (l : List UInt8) (off : ℕ) : ℕ :=
  off + 8 + 2 + 1 + (l.getD (off + 8 + 2) 0).toNat + 1 +
    (l.getD (off + 8 + 2 + 1 + (l.getD (off + 8 + 2) 0).toNat) 0).toNat

/-- The three checks of a round amount to the last one. -/
theorem logRows_succ (l : List UInt8) (n off : ℕ) :
    logRows l (n + 1) off =
      if rowEnd l off ≤ l.length then
        (rowAt l off :: (logRows l n (rowEnd l off)).1, (logRows l n (rowEnd l off)).2)
      else ([], false) := by
  rw [logRows]
  by_cases hend : rowEnd l off ≤ l.length
  · rw [if_pos hend]
    unfold rowEnd at hend
    rw [if_neg (by omega), if_neg (by omega), if_neg (by omega)]
    rfl
  · rw [if_neg hend]
    unfold rowEnd at hend
    by_cases hfixed : off + 8 + 2 + 1 > l.length
    · rw [if_pos hfixed]
    · by_cases huser : off + 8 + 2 + 1 + (l.getD (off + 8 + 2) 0).toNat + 1 > l.length
      · rw [if_neg hfixed, if_pos huser]
      · rw [if_neg hfixed, if_neg huser, if_pos (by omega)]

/-- The fixed part of an entry and its two names. -/
theorem drop_row (h : rowEnd l off ≤ l.length) :
    (rowAt l off).user.length ≤ 255 ∧ (rowAt l off).addr.length ≤ 255 ∧
      l.drop off = (rowAt l off).bytes ++ l.drop (rowEnd l off) := by
  unfold rowEnd at h
  have huserRoom : off + 8 + 2 + 1 + (l.getD (off + 8 + 2) 0).toNat ≤ l.length := by omega
  obtain ⟨user, huser, -, huserLe, huserDrop⟩ := drop_name huserRoom
  obtain ⟨addr, haddr, -, haddrLe, haddrDrop⟩ := drop_name h
  have htime : ((l.drop off).take 8).length = 8 := by
    rw [List.length_take, List.length_drop]
    omega
  have htimes := List.take_append_drop 8 (l.drop off)
  rw [List.drop_drop] at htimes
  have hport : l.drop (off + 8) =
      [l.getD (off + 8) 0, l.getD (off + 8 + 1) 0] ++ l.drop (off + 8 + 2) := by
    rw [drop_getD (by omega), drop_getD (k := off + 8 + 1) (by omega)]
    rfl
  have hbytes : (rowAt l off).bytes = (l.drop off).take 8 ++
      [l.getD (off + 8) 0, l.getD (off + 8 + 1) 0] ++ nameBytes user ++ nameBytes addr := by
    simp only [LogRow.bytes, rowAt, UInt64.toUInt64_toInt64, huser, haddr]
    rw [putBe_beU64 htime, putBe_beU16]
  have huserEq : (rowAt l off).user = user := huser
  have haddrEq : (rowAt l off).addr = addr := haddr
  refine ⟨by rw [huserEq]; exact huserLe, by rw [haddrEq]; exact haddrLe, ?_⟩
  calc
    l.drop off = (l.drop off).take 8 ++ l.drop (off + 8) := htimes.symm
    _ = (l.drop off).take 8 ++ ([l.getD (off + 8) 0, l.getD (off + 8 + 1) 0] ++
        (nameBytes user ++ (nameBytes addr ++ l.drop (rowEnd l off)))) := by
      rw [hport, huserDrop, haddrDrop, rowEnd]
    _ = (rowAt l off).bytes ++ l.drop (rowEnd l off) := by
      rw [hbytes]
      simp only [List.append_assoc]

/-- What the loop reads is written in the payload. -/
theorem logRows_inv {rows : List LogRow} (h : logRows l n off = (rows, true)) :
    rows.length = n ∧ (∀ r ∈ rows, r.user.length ≤ 255 ∧ r.addr.length ≤ 255) ∧
      ∃ rest, l.drop off = rows.flatMap LogRow.bytes ++ rest := by
  induction n generalizing off rows with
  | zero =>
    obtain rfl : [] = rows := congrArg Prod.fst h
    exact ⟨rfl, by simp, l.drop off, rfl⟩
  | succ n ih =>
    rw [logRows_succ] at h
    split at h
    next hend =>
      obtain ⟨hcons, hok⟩ := Prod.mk.inj h
      obtain ⟨hlen, hall, rest, htail⟩ := ih (Prod.ext rfl hok)
      obtain ⟨huser, haddr, hdrop⟩ := drop_row hend
      subst hcons
      refine ⟨by rw [List.length_cons, hlen], ?_, rest, ?_⟩
      · intro r hmem
        rcases List.mem_cons.mp hmem with rfl | hmem
        · exact ⟨huser, haddr⟩
        · exact hall r hmem
      · rw [hdrop, htail, List.flatMap_cons, List.append_assoc]
    next => cases h

/-- mon_format_access_log returns 0 on the declared number of entries, and on nothing
else. -/
theorem monFormatAccessLog_iff {payload : Option (List UInt8)} {rows : List LogRow} :
    monFormatAccessLog payload = (rows, true) ↔
      rows.length < 65536 ∧ (∀ r ∈ rows, r.user.length ≤ 255 ∧ r.addr.length ≤ 255) ∧
      ∃ rest, payload =
        some (putBe (UInt64.ofNat rows.length) 2 ++ (rows.flatMap LogRow.bytes ++ rest)) := by
  constructor
  · intro h
    cases payload with
    | none => cases h
    | some l =>
      rw [monFormatAccessLog] at h
      split at h
      next => cases h
      next hlong =>
        obtain ⟨hlen, hall, rest, hdrop⟩ := logRows_inv h
        have hcount := (beU16 (l.getD 0 0) (l.getD 1 0)).toNat_lt
        refine ⟨by omega, hall, rest, ?_⟩
        have hword : UInt64.ofNat rows.length = (beU16 (l.getD 0 0) (l.getD 1 0)).toUInt64 := by
          apply UInt64.toNat_inj.mp
          rw [UInt64.toNat_ofNat', hlen, UInt16.toNat_toUInt64]
          omega
        have hhead : l = [l.getD 0 0, l.getD 1 0] ++ l.drop 2 := by
          have hzero := drop_getD (l := l) (k := 0) (by omega)
          rw [List.drop_zero, drop_getD (by omega)] at hzero
          exact hzero
        rw [hword, putBe_beU16, ← hdrop, ← hhead]
  · rintro ⟨hcount, hall, rest, rfl⟩
    have hlen : ¬ (putBe (UInt64.ofNat rows.length) 2 ++
        (rows.flatMap LogRow.bytes ++ rest)).length < 2 := by
      rw [List.length_append, putBe_length]
      omega
    have hrows := logRows_rows rows hall (putBe (UInt64.ofNat rows.length) 2) rest
    rw [putBe_length] at hrows
    rw [monFormatAccessLog, if_neg hlen, beU16_count hcount]
    exact hrows

end Accepted

end SocksProxy.PayloadReads
