import SocksProxy.MonProtocol

/-!
The payload formatters of mon_client.c. Each returns the rows it prints and
whether the payload was well formed; the text of a row is left to printf.
-/
namespace SocksProxy.MonFormat

open BigEndian MonProtocol

/-- mon_format_metrics: the three counters. -/
def monFormatMetrics (payload : Option (List UInt8)) : Option (UInt64 × UInt64 × UInt64) :=
  match payload with
  | none => none
  | some bytes =>
    if bytes.length ≠ MON_METRICS_PAYLOAD_LEN.toNat then none
    else
      some (beU64 (bytes.take 8), beU64 ((bytes.drop 8).take 8), beU64 ((bytes.drop 16).take 8))

/-- The loop of mon_format_users over `n` names from offset `off`. -/
def userRows (payload : List UInt8) : ℕ → ℕ → List (List UInt8) × Bool
  | 0, _ => ([], true)
  | n + 1, off =>
    if off ≥ payload.length then ([], false)
    else
      let nl := (payload.getD off 0).toNat
      let off := off + 1
      if off + nl > payload.length then ([], false)
      else
        let (rows, ok) := userRows payload n (off + nl)
        ((payload.drop off).take nl :: rows, ok)

def monFormatUsers (payload : Option (List UInt8)) : List (List UInt8) × Bool :=
  match payload with
  | none => ([], false)
  | some bytes => if bytes.length < 1 then ([], false) else userRows bytes (bytes.getD 0 0).toNat 1

/-- What is printed of an entry of the access log. -/
structure LogRow where
  timestamp : Int64
  user : List UInt8
  addr : List UInt8
  port : UInt16
  deriving DecidableEq

/-- The loop of mon_format_access_log over `n` entries from offset `off`. -/
def logRows (payload : List UInt8) : ℕ → ℕ → List LogRow × Bool
  | 0, _ => ([], true)
  | n + 1, off =>
    if off + 8 + 2 + 1 > payload.length then ([], false)
    else
      let ts := beU64 ((payload.drop off).take 8)
      let off := off + 8
      let port := beU16 (payload.getD off 0) (payload.getD (off + 1) 0)
      let off := off + 2
      let ul := (payload.getD off 0).toNat
      let off := off + 1
      if off + ul + 1 > payload.length then ([], false)
      else
        let user := (payload.drop off).take ul
        let off := off + ul
        let al := (payload.getD off 0).toNat
        let off := off + 1
        if off + al > payload.length then ([], false)
        else
          let addr := (payload.drop off).take al
          let (rows, ok) := logRows payload n (off + al)
          ({ timestamp := ts.toInt64, user := user, addr := addr, port := port } :: rows, ok)

def monFormatAccessLog (payload : Option (List UInt8)) : List LogRow × Bool :=
  match payload with
  | none => ([], false)
  | some bytes =>
    if bytes.length < 2 then ([], false)
    else logRows bytes (beU16 (bytes.getD 0 0) (bytes.getD 1 0)).toNat 2

section Layout

/-- A name in the payload of LIST_USERS. -/
def nameBytes (name : List UInt8) : List UInt8 := UInt8.ofNat name.length :: name

/-- A row in the payload of GET_ACCESS_LOG. -/
def LogRow.bytes (r : LogRow) : List UInt8 :=
  putBe r.timestamp.toUInt64 8 ++ putBe r.port.toUInt64 2 ++ nameBytes r.user ++ nameBytes r.addr

theorem nameBytes_length (name : List UInt8) : (nameBytes name).length = name.length + 1 :=
  List.length_cons

/-- A name at offset `k`: its length byte and the bytes behind it. -/
theorem nameBytes_at {name l : List UInt8} {k : ℕ} (pre post : List UInt8)
    (hname : name.length ≤ 255) (hl : l = pre ++ (nameBytes name ++ post)) (hk : k = pre.length) :
    (l.getD k 0).toNat = name.length ∧ (l.drop (k + 1)).take name.length = name ∧
      k + 1 + name.length + post.length = l.length := by
  subst hl hk
  refine ⟨?_, ?_, ?_⟩
  · have hnat : (UInt8.ofNat name.length).toNat = name.length := by
      rw [UInt8.toNat_ofNat']
      omega
    rw [List.getD_eq_getElem?_getD, List.getElem?_append_right (Nat.le_refl _), Nat.sub_self]
    exact hnat
  · have hsplit : pre ++ (nameBytes name ++ post) =
        (pre ++ [UInt8.ofNat name.length]) ++ (name ++ post) := by
      simp [nameBytes]
    rw [hsplit, List.drop_left' (by rw [List.length_append, List.length_singleton]),
      List.take_left]
  · simp only [List.length_append, nameBytes_length]
    omega

/-- The names of a payload are read back, whatever stands behind them. -/
theorem userRows_names (names : List (List UInt8)) (h : ∀ name ∈ names, name.length ≤ 255)
    (pre post : List UInt8) :
    userRows (pre ++ (names.flatMap nameBytes ++ post)) names.length pre.length =
      (names, true) := by
  induction names generalizing pre with
  | nil => rfl
  | cons name names ih =>
    have hl : pre ++ ((name :: names).flatMap nameBytes ++ post) =
        pre ++ (nameBytes name ++ (names.flatMap nameBytes ++ post)) := by
      rw [List.flatMap_cons, List.append_assoc]
    obtain ⟨hlen, hbytes, htotal⟩ := nameBytes_at pre (names.flatMap nameBytes ++ post)
      (h name List.mem_cons_self) hl rfl
    have hrest := ih (fun n hn => h n (List.mem_cons_of_mem _ hn)) (pre ++ nameBytes name)
    rw [List.append_assoc, ← hl, List.length_append, nameBytes_length] at hrest
    rw [List.length_cons, userRows, if_neg (by omega)]
    simp only [hlen]
    rw [if_neg (by omega), hbytes, show pre.length + 1 + name.length = pre.length + (name.length + 1)
      by omega, hrest]

theorem beU16_putBe_at {v : UInt16} {l : List UInt8} {k : ℕ} (pre post : List UInt8)
    (hl : l = pre ++ (putBe v.toUInt64 2 ++ post)) (hk : k = pre.length) :
    beU16 (l.getD k 0) (l.getD (k + 1) 0) = v := by
  obtain ⟨hi, lo, hput, hval⟩ := putBe_two v.toUInt64
  have hv := v.toNat_lt
  have hhi : l.getD k 0 = hi := by
    rw [hl, hput, hk, List.getD_eq_getElem?_getD, List.getElem?_append_right (Nat.le_refl _),
      Nat.sub_self]
    rfl
  have hlo : l.getD (k + 1) 0 = lo := by
    rw [hl, hput, hk, List.getD_eq_getElem?_getD, List.getElem?_append_right (by omega),
      Nat.add_sub_cancel_left]
    rfl
  apply UInt16.toNat_inj.mp
  rw [hhi, hlo, hval, UInt16.toNat_toUInt64]
  omega

/-- The rows of a payload are read back. -/
theorem logRows_rows (rows : List LogRow)
    (h : ∀ r ∈ rows, r.user.length ≤ 255 ∧ r.addr.length ≤ 255) (pre post : List UInt8) :
    logRows (pre ++ (rows.flatMap LogRow.bytes ++ post)) rows.length pre.length =
      (rows, true) := by
  induction rows generalizing pre with
  | nil => rfl
  | cons r rows ih =>
    obtain ⟨huser, haddr⟩ := h r List.mem_cons_self
    have hrest := ih (fun n hn => h n (List.mem_cons_of_mem _ hn)) (pre ++ r.bytes)
    generalize htail : rows.flatMap LogRow.bytes ++ post = tail at hrest
    have hl : pre ++ ((r :: rows).flatMap LogRow.bytes ++ post) = pre ++ r.bytes ++ tail := by
      rw [List.flatMap_cons, ← htail]
      simp only [List.append_assoc]
    have hbytes : r.bytes.length = 8 + 2 + (r.user.length + 1) + (r.addr.length + 1) := by
      simp only [LogRow.bytes, List.length_append, putBe_length, nameBytes_length]
    rw [List.length_append, hbytes] at hrest
    rw [hl, List.length_cons]
    generalize hsplit : pre ++ r.bytes ++ tail = l at hrest
    simp only [LogRow.bytes, List.append_assoc] at hsplit
    have hts : (l.drop pre.length).take 8 = putBe r.timestamp.toUInt64 8 := by
      rw [← hsplit, List.drop_left, List.take_left' (putBe_length _ _)]
    have hport : beU16 (l.getD (pre.length + 8) 0) (l.getD (pre.length + 8 + 1) 0) = r.port := by
      apply beU16_putBe_at (pre ++ putBe r.timestamp.toUInt64 8)
        (nameBytes r.user ++ (nameBytes r.addr ++ tail))
      · rw [← hsplit, List.append_assoc]
      · rw [List.length_append, putBe_length]
    obtain ⟨hulen, hubytes, hutotal⟩ := nameBytes_at (l := l) (k := pre.length + 8 + 2)
      (pre ++ putBe r.timestamp.toUInt64 8 ++ putBe r.port.toUInt64 2) (nameBytes r.addr ++ tail)
      huser (by rw [← hsplit]; simp only [List.append_assoc])
      (by simp only [List.length_append, putBe_length])
    obtain ⟨halen, habytes, hatotal⟩ := nameBytes_at (l := l)
      (k := pre.length + 8 + 2 + 1 + r.user.length)
      (pre ++ putBe r.timestamp.toUInt64 8 ++ putBe r.port.toUInt64 2 ++ nameBytes r.user) tail
      haddr (by rw [← hsplit]; simp only [List.append_assoc])
      (by simp only [List.length_append, putBe_length, nameBytes_length]; omega)
    rw [logRows, if_neg (by omega)]
    simp only [hulen]
    rw [if_neg (by omega)]
    simp only [halen]
    rw [if_neg (by omega), hubytes, habytes, hport, hts, beU64_putBe,
      show pre.length + 8 + 2 + 1 + r.user.length + 1 + r.addr.length =
        pre.length + (8 + 2 + (r.user.length + 1) + (r.addr.length + 1)) by omega, hrest]
    simp

/-- A count in front of a payload. -/
theorem beU16_count {n : ℕ} (h : n < 65536) (post : List UInt8) :
    (beU16 ((putBe (UInt64.ofNat n) 2 ++ post).getD 0 0)
      ((putBe (UInt64.ofNat n) 2 ++ post).getD 1 0)).toNat = n := by
  obtain ⟨hi, lo, hput, hval⟩ := putBe_two (UInt64.ofNat n)
  rw [hput]
  refine hval.trans ?_
  rw [UInt64.toNat_ofNat']
  omega

theorem monFormatAccessLog_rows {rows : List LogRow} (hcount : rows.length < 65536)
    (h : ∀ r ∈ rows, r.user.length ≤ 255 ∧ r.addr.length ≤ 255) :
    monFormatAccessLog (some (putBe (UInt64.ofNat rows.length) 2 ++ rows.flatMap LogRow.bytes)) =
      (rows, true) := by
  have hlen : ¬ (putBe (UInt64.ofNat rows.length) 2 ++ rows.flatMap LogRow.bytes).length < 2 := by
    rw [List.length_append, putBe_length]
    omega
  have hrows := logRows_rows rows h (putBe (UInt64.ofNat rows.length) 2) []
  rw [List.append_nil, putBe_length] at hrows
  simp only [monFormatAccessLog, if_neg hlen, beU16_count hcount, hrows]

theorem monFormatUsers_names {names : List (List UInt8)} (hcount : names.length ≤ 255)
    (h : ∀ name ∈ names, name.length ≤ 255) :
    monFormatUsers (some (UInt8.ofNat names.length :: names.flatMap nameBytes)) =
      (names, true) := by
  have hnat : (UInt8.ofNat names.length).toNat = names.length := by
    rw [UInt8.toNat_ofNat']
    omega
  have hlen : ¬ (UInt8.ofNat names.length :: names.flatMap nameBytes).length < 1 := by
    rw [List.length_cons]
    omega
  have hrows := userRows_names names h [UInt8.ofNat names.length] []
  rw [List.append_nil, List.singleton_append, List.length_singleton] at hrows
  simp only [monFormatUsers, if_neg hlen, List.getD_cons_zero, hnat, hrows]

theorem monFormatMetrics_counters (a b c : UInt64) :
    monFormatMetrics (some (putBe a 8 ++ putBe b 8 ++ putBe c 8)) = some (a, b, c) := by
  have hlen : (putBe a 8 ++ putBe b 8 ++ putBe c 8).length = MON_METRICS_PAYLOAD_LEN.toNat := by
    simp only [List.length_append, putBe_length]
    rfl
  have hfirst : (putBe a 8 ++ putBe b 8 ++ putBe c 8).take 8 = putBe a 8 := by
    rw [List.append_assoc, List.take_left' (putBe_length a 8)]
  have hsecond : ((putBe a 8 ++ putBe b 8 ++ putBe c 8).drop 8).take 8 = putBe b 8 := by
    rw [List.append_assoc, List.drop_left' (putBe_length a 8), List.take_left' (putBe_length b 8)]
  have hthird : ((putBe a 8 ++ putBe b 8 ++ putBe c 8).drop 16).take 8 = putBe c 8 := by
    have hpre : (putBe a 8 ++ putBe b 8).length = 16 := by
      simp only [List.length_append, putBe_length]
    rw [List.drop_left' hpre, List.take_of_length_le (Nat.le_of_eq (putBe_length c 8))]
  simp only [monFormatMetrics, hlen, ne_eq, not_true_eq_false, if_false, hfirst, hsecond, hthird,
    beU64_putBe]

end Layout

end SocksProxy.MonFormat
