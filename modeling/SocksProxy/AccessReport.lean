import SocksProxy.AccessLog
import SocksProxy.ByteBuffer
import SocksProxy.MonFormat

/-!
The payload of GET_ACCESS_LOG in mon_nio.c: a pass from the newest entry back
finds how many fit, a second pass writes them from the oldest of these on.
-/
namespace SocksProxy.AccessReport

open ByteBuffer BigEndian Auth UserTable Circular AccessLog MonProtocol MonFormat

def MON_IO_BUF_SIZE : ℕ := 4096
def MON_RESPONSE_PAYLOAD_MAX : ℕ := MON_IO_BUF_SIZE - MON_RESPONSE_HEADER_LEN
def MON_ACCESS_LOG_COUNT_LEN : ℕ := 2
def MON_ACCESS_LOG_ENTRY_FIXED_LEN : ℕ := 8 + 2 + 1 + 1

def accessLogEntryEncodedLen (e : AccessEntry) : ℕ :=
  MON_ACCESS_LOG_ENTRY_FIXED_LEN + (cString e.username.toList).length +
    (cString e.destAddr.toList).length

/-- The sizing loop: `k` entries are left, and the results are the offset, the
index of the last entry that fits and how many fit. -/
def sizeEntries (log : Log) (newest : ℕ) : (k off start encoded : ℕ) → ℕ × ℕ × ℕ
  | 0, off, start, encoded => (off, start, encoded)
  | k + 1, off, start, encoded =>
    let idx := (newest + MAX_LOG_ENTRIES - 1 - encoded) % MAX_LOG_ENTRIES
    let entryLen := accessLogEntryEncodedLen (log.cell (newest + MAX_LOG_ENTRIES - 1 - encoded))
    if off + entryLen > MON_RESPONSE_PAYLOAD_MAX then (off, start, encoded)
    else sizeEntries log newest k (off + entryLen) idx (encoded + 1)

/-- A write at `off` and the offset behind it; `none` when it leaves the array. -/
def putAt (payload : List UInt8) (off : ℕ) (bytes : List UInt8) : Option (List UInt8 × ℕ) :=
  if off + bytes.length ≤ payload.length then
    some (store payload off bytes, off + bytes.length)
  else none

def encodeEntry (e : AccessEntry) (payload : List UInt8) (off : ℕ) :
    Option (List UInt8 × ℕ) := do
  let ulen := UInt8.ofNat (cString e.username.toList).length
  let dlen := UInt8.ofNat (cString e.destAddr.toList).length
  let (payload, off) ← putAt payload off (putBe e.timestamp.toUInt64 8)
  let (payload, off) ← putAt payload off (putBe e.destPort.toUInt64 2)
  let (payload, off) ← putAt payload off [ulen]
  let (payload, off) ← putAt payload off (e.username.toList.take ulen.toNat)
  let (payload, off) ← putAt payload off [dlen]
  putAt payload off (e.destAddr.toList.take dlen.toNat)

/-- The encoding loop over `n` entries from the `i`-th after `start`. -/
def encodeEntries (log : Log) (start : ℕ) :
    (n i : ℕ) → List UInt8 → ℕ → Option (List UInt8 × ℕ)
  | 0, _, payload, off => some (payload, off)
  | n + 1, i, payload, off => do
    let (payload, off) ← encodeEntry (log.cell (start + i)) payload off
    encodeEntries log start n (i + 1) payload off

/-- The payload array, which starts with the bytes of `stack`, and the length
that is sent. -/
def accessLogPayload (log : Log) (stack : List UInt8) : Option (List UInt8 × ℕ) := do
  let count := accessLogCount log
  let oldest := accessLogOldestIndex log
  let newest := (oldest + count) % MAX_LOG_ENTRIES
  let (_, start, encoded) := sizeEntries log newest count MON_ACCESS_LOG_COUNT_LEN newest 0
  let (payload, off) ← encodeEntries log start encoded 0 stack MON_ACCESS_LOG_COUNT_LEN
  let (payload, _) ← putAt payload 0 (putBe (UInt64.ofNat encoded) 2)
  some (payload, off)

section Sizing

/-- The bytes that the last `k` entries take. -/
def tailLen (log : Log) (k : ℕ) : ℕ :=
  ((log.contents.rtake k).map accessLogEntryEncodedLen).sum

/-- The sizing loop keeps the last `encoded` entries, as many as fit. -/
theorem sizeEntries_spec (log : Log) (k encoded off : ℕ) (hk : encoded + k = log.count)
    (hoff : off = MON_ACCESS_LOG_COUNT_LEN + tailLen log encoded)
    (hfit : off ≤ MON_RESPONSE_PAYLOAD_MAX) (start : ℕ)
    (hstart : start = (log.oldest + (log.count - encoded)) % MAX_LOG_ENTRIES) :
    ∃ kept, kept ≤ log.count ∧
      sizeEntries log ((log.oldest + log.count) % MAX_LOG_ENTRIES) k off start encoded =
        (MON_ACCESS_LOG_COUNT_LEN + tailLen log kept,
          (log.oldest + (log.count - kept)) % MAX_LOG_ENTRIES, kept) ∧
      MON_ACCESS_LOG_COUNT_LEN + tailLen log kept ≤ MON_RESPONSE_PAYLOAD_MAX ∧
      (kept < log.count → MON_RESPONSE_PAYLOAD_MAX <
        MON_ACCESS_LOG_COUNT_LEN + tailLen log (kept + 1)) := by
  induction k generalizing encoded off start with
  | zero =>
    subst hoff hstart
    exact ⟨encoded, by omega, rfl, hfit, fun hlt => absurd hlt (by omega)⟩
  | succ k ih =>
    have hlt : encoded < log.count := by omega
    have hback := log.cell_back hlt
    have hgrow : tailLen log (encoded + 1) =
        accessLogEntryEncodedLen (log.entry (log.count - 1 - encoded)) + tailLen log encoded := by
      rw [tailLen, log.rtake_succ hlt, List.map_cons, List.sum_cons]
      rfl
    rw [sizeEntries, hback]
    by_cases hover : off + accessLogEntryEncodedLen (log.entry (log.count - 1 - encoded)) >
        MON_RESPONSE_PAYLOAD_MAX
    · simp only [if_pos hover]
      subst hoff hstart
      exact ⟨encoded, by omega, rfl, hfit, fun _ => by rw [hgrow]; omega⟩
    · simp only [if_neg hover]
      apply ih (encoded + 1) _ (by omega)
      · rw [hgrow, hoff]
        omega
      · omega
      · rw [log.back_index hlt]
        congr 2
        omega

end Sizing

section Encoding

/-- What the client prints of an entry. -/
def entryRow (e : AccessEntry) : LogRow where
  timestamp := e.timestamp
  user := cString e.username.toList
  addr := cString e.destAddr.toList
  port := e.destPort

/-- Both strings end inside their arrays. -/
def Terminated (e : AccessEntry) : Prop :=
  (cString e.username.toList).length ≤ MAX_CRED_LEN ∧
    (cString e.destAddr.toList).length ≤ MAX_CRED_LEN

theorem entryRow_length (e : AccessEntry) :
    (entryRow e).bytes.length = accessLogEntryEncodedLen e := by
  simp only [LogRow.bytes, entryRow, List.length_append, putBe_length, nameBytes_length,
    accessLogEntryEncodedLen, MON_ACCESS_LOG_ENTRY_FIXED_LEN]
  omega

/-- The first `off` bytes of the array are written and read `w`. -/
def Written (payload : List UInt8) (off : ℕ) (w : List UInt8) : Prop :=
  payload.length = MON_RESPONSE_PAYLOAD_MAX ∧ off = w.length ∧ payload.take off = w

theorem store_written {payload w : List UInt8} {off : ℕ} (h : Written payload off w)
    (bytes : List UInt8) {n : ℕ} (hn : bytes.length = n)
    (hfit : off + n ≤ MON_RESPONSE_PAYLOAD_MAX) :
    Written (store payload off bytes) (off + n) (w ++ bytes) := by
  obtain ⟨hlen, hoff, htake⟩ := h
  subst hn
  have hle : off + bytes.length ≤ payload.length := by omega
  refine ⟨?_, ?_, ?_⟩
  · rw [store_length _ _ _ hle, hlen]
  · rw [List.length_append, hoff]
  · rw [store, htake, hoff, ← List.length_append]
    exact List.take_left

theorem putAt_written {payload w : List UInt8} {off : ℕ} (h : Written payload off w)
    (bytes : List UInt8) {n : ℕ} (hn : bytes.length = n)
    (hfit : off + n ≤ MON_RESPONSE_PAYLOAD_MAX) :
    ∃ payload', putAt payload off bytes = some (payload', off + n) ∧
      Written payload' (off + n) (w ++ bytes) := by
  have hle : off + bytes.length ≤ payload.length := by
    rw [h.1, hn]
    exact hfit
  refine ⟨store payload off bytes, ?_, store_written h bytes hn hfit⟩
  rw [putAt, if_pos hle, hn]

theorem cString_eq_take (l : List UInt8) : l.take (cString l).length = cString l :=
  (List.prefix_iff_eq_take.mp (List.takeWhile_prefix _)).symm

theorem encodeEntry_spec {e : AccessEntry} (he : Terminated e) {payload w : List UInt8} {off : ℕ}
    (h : Written payload off w)
    (hfit : off + accessLogEntryEncodedLen e ≤ MON_RESPONSE_PAYLOAD_MAX) :
    ∃ payload', encodeEntry e payload off = some (payload', off + accessLogEntryEncodedLen e) ∧
      Written payload' (off + accessLogEntryEncodedLen e) (w ++ (entryRow e).bytes) := by
  obtain ⟨huser, hdest⟩ := he
  unfold MAX_CRED_LEN at huser hdest
  have hu : (UInt8.ofNat (cString e.username.toList).length).toNat =
      (cString e.username.toList).length := by
    rw [UInt8.toNat_ofNat']
    omega
  have hd : (UInt8.ofNat (cString e.destAddr.toList).length).toNat =
      (cString e.destAddr.toList).length := by
    rw [UInt8.toNat_ofNat']
    omega
  have hlen : accessLogEntryEncodedLen e =
      8 + 2 + 1 + (cString e.username.toList).length + 1 + (cString e.destAddr.toList).length := by
    simp only [accessLogEntryEncodedLen, MON_ACCESS_LOG_ENTRY_FIXED_LEN]
    omega
  rw [hlen] at hfit ⊢
  obtain ⟨p₁, h₁, w₁⟩ :=
    putAt_written h (putBe e.timestamp.toUInt64 8) (putBe_length _ _) (by omega)
  obtain ⟨p₂, h₂, w₂⟩ :=
    putAt_written w₁ (putBe e.destPort.toUInt64 2) (putBe_length _ _) (by omega)
  obtain ⟨p₃, h₃, w₃⟩ := putAt_written w₂ [UInt8.ofNat (cString e.username.toList).length]
    List.length_singleton (by omega)
  obtain ⟨p₄, h₄, w₄⟩ := putAt_written w₃ (cString e.username.toList) rfl (by omega)
  obtain ⟨p₅, h₅, w₅⟩ := putAt_written w₄ [UInt8.ofNat (cString e.destAddr.toList).length]
    List.length_singleton (by omega)
  obtain ⟨p₆, h₆, w₆⟩ := putAt_written w₅ (cString e.destAddr.toList) rfl (by omega)
  have hoff : off + (8 + 2 + 1 + (cString e.username.toList).length + 1 +
      (cString e.destAddr.toList).length) = off + 8 + 2 + 1 + (cString e.username.toList).length +
      1 + (cString e.destAddr.toList).length := by omega
  rw [hoff]
  refine ⟨p₆, ?_, ?_⟩
  · simp only [encodeEntry, h₁, h₂, h₃, hu, cString_eq_take, h₄, h₅, hd, h₆, Option.bind_eq_bind,
      Option.bind_some]
  · simpa only [LogRow.bytes, entryRow, nameBytes, List.append_assoc, List.cons_append,
      List.nil_append] using w₆

/-- The encoding loop writes the last `n` entries, oldest first. -/
theorem encodeEntries_spec {log : Log} (hlog : ∀ e ∈ log.contents, Terminated e) {kept : ℕ}
    (hkept : kept ≤ log.count) (n i : ℕ) (hn : i + n = kept) {payload w : List UInt8} {off : ℕ}
    (h : Written payload off w) (hfit : off + tailLen log n ≤ MON_RESPONSE_PAYLOAD_MAX) :
    ∃ payload', encodeEntries log ((log.oldest + (log.count - kept)) % MAX_LOG_ENTRIES) n i
        payload off = some (payload', off + tailLen log n) ∧
      Written payload' (off + tailLen log n)
        (w ++ ((log.contents.rtake n).map entryRow).flatMap LogRow.bytes) := by
  induction n generalizing i payload w off with
  | zero =>
    have hnil : log.contents.rtake 0 = [] := List.rtake_zero _
    refine ⟨payload, by simp [encodeEntries, tailLen, hnil], ?_⟩
    simpa [tailLen, hnil] using h
  | succ n ih =>
    have hlt : n < log.count := by omega
    have hindex :
        ((log.oldest + (log.count - kept)) % MAX_LOG_ENTRIES + i) % MAX_LOG_ENTRIES =
        (log.oldest + (log.count - 1 - n)) % MAX_LOG_ENTRIES := by
      rw [Nat.mod_add_mod]
      congr 1
      omega
    have htail : tailLen log (n + 1) =
        accessLogEntryEncodedLen (log.entry (log.count - 1 - n)) + tailLen log n := by
      rw [tailLen, log.rtake_succ hlt, List.map_cons, List.sum_cons]
      rfl
    have hmem : log.entry (log.count - 1 - n) ∈ log.contents :=
      List.mem_of_getElem? (log.contents_getElem? (i := log.count - 1 - n) (by omega))
    rw [htail] at hfit ⊢
    obtain ⟨p, hp, hw⟩ := encodeEntry_spec (hlog _ hmem) h (by omega)
    obtain ⟨p', hp', hw'⟩ := ih (i + 1) (by omega) hw (by omega)
    rw [← Nat.add_assoc]
    refine ⟨p', ?_, ?_⟩
    · have hcell := log.cell_congr hindex
      rw [encodeEntries, hcell, show log.cell (log.oldest + (log.count - 1 - n)) =
        log.entry (log.count - 1 - n) from rfl, hp]
      exact hp'
    · rw [log.rtake_succ hlt, List.map_cons, List.flatMap_cons, ← List.append_assoc]
      exact hw'

end Encoding

/-- The payload: the count and the rows of the last entries that fit. -/
theorem accessLogPayload_spec {log : Log} (hlog : ∀ e ∈ log.contents, Terminated e)
    {stack : List UInt8} (hstack : stack.length = MON_RESPONSE_PAYLOAD_MAX) :
    ∃ kept payload, kept ≤ log.count ∧
      accessLogPayload log stack = some (payload, MON_ACCESS_LOG_COUNT_LEN + tailLen log kept) ∧
      Written payload (MON_ACCESS_LOG_COUNT_LEN + tailLen log kept)
        (putBe (UInt64.ofNat kept) 2 ++
          ((log.contents.rtake kept).map entryRow).flatMap LogRow.bytes) ∧
      MON_ACCESS_LOG_COUNT_LEN + tailLen log kept ≤ MON_RESPONSE_PAYLOAD_MAX ∧
      (kept < log.count → MON_RESPONSE_PAYLOAD_MAX <
        MON_ACCESS_LOG_COUNT_LEN + tailLen log (kept + 1)) := by
  have htail : tailLen log 0 = 0 := by simp [tailLen]
  obtain ⟨kept, hle, hsize, hfit, hstop⟩ := sizeEntries_spec log log.count 0
    MON_ACCESS_LOG_COUNT_LEN (by omega) (by rw [htail, Nat.add_zero]) (by decide) _ rfl
  have hcount : MON_ACCESS_LOG_COUNT_LEN ≤ stack.length := by
    rw [hstack]
    decide
  have hstart : Written stack MON_ACCESS_LOG_COUNT_LEN (stack.take MON_ACCESS_LOG_COUNT_LEN) :=
    ⟨hstack, by rw [List.length_take, Nat.min_eq_left hcount], rfl⟩
  obtain ⟨p, hp, hplen, hoff, hptake⟩ := encodeEntries_spec hlog hle kept 0 (by omega) hstart hfit
  have hput : 0 + (putBe (UInt64.ofNat kept) 2).length ≤ p.length := by
    rw [hplen, putBe_length]
    decide
  refine ⟨kept, store p 0 (putBe (UInt64.ofNat kept) 2), hle, ?_, ⟨?_, ?_, ?_⟩, hfit, hstop⟩
  · simp only [accessLogPayload, accessLogCount, accessLogOldestIndex]
    rw [Nat.sub_zero] at hsize
    rw [hsize]
    simp only [hp, putAt, if_pos hput, Option.bind_eq_bind, Option.bind_some]
  · rw [store_length _ _ _ hput, hplen]
  · rw [hoff, List.length_append, List.length_append, putBe_length, List.length_take,
      Nat.min_eq_left hcount]
    rfl
  · have hcut : (stack.take MON_ACCESS_LOG_COUNT_LEN).length = MON_ACCESS_LOG_COUNT_LEN := by
      rw [List.length_take, Nat.min_eq_left hcount]
    have hrows := congrArg (List.drop MON_ACCESS_LOG_COUNT_LEN) hptake
    rw [List.drop_left' hcut, List.drop_take, Nat.add_sub_cancel_left] at hrows
    have hnum : (putBe (UInt64.ofNat kept) 2).length = MON_ACCESS_LOG_COUNT_LEN := putBe_length _ _
    rw [store, List.take_zero, List.nil_append, Nat.zero_add, hnum, ← hnum,
      List.take_length_add_append, hnum, hrows]

section History

/-- What the client should print of a call. -/
def accessRow (a : Access) : LogRow where
  timestamp := a.now
  user := a.user
  addr := a.dest
  port := a.destPort

theorem entryRow_entry {a : Access} (h : a.Fits) : entryRow a.entry = accessRow a := by
  rw [entryRow, accessRow, h.username_eq, h.destAddr_eq]
  rfl

theorem terminated_entry (a : Access) : Terminated a.entry :=
  ⟨cString_length_le (strncpy_last _), cString_length_le (strncpy_last _)⟩

/-- Every entry of a log that calls have built is terminated. -/
theorem terminated_of_calls (calls : List Access) :
    ∀ e ∈ (calls.foldl accessLogAdd accessLogInit).contents, Terminated e := by
  intro e he
  rw [contents_of_calls] at he
  obtain ⟨a, -, rfl⟩ := List.mem_map.mp he
  exact terminated_entry a

/-- What the client prints of a call: the strings as far as an entry holds them. -/
def printed (a : Access) : LogRow := entryRow a.entry

/-- The last `k` entries of the log hold the last `k` calls. -/
theorem rtake_printed (calls : List Access) (k : ℕ) :
    ((calls.foldl accessLogAdd accessLogInit).contents.rtake k).map entryRow =
      ((calls.rtake MAX_LOG_ENTRIES).rtake k).map printed := by
  rw [contents_of_calls, List.rtake, List.length_map, ← List.map_drop, ← List.rtake, List.map_map]
  rfl

theorem tailLen_printed (calls : List Access) (k : ℕ) :
    tailLen (calls.foldl accessLogAdd accessLogInit) k =
      (((calls.rtake MAX_LOG_ENTRIES).rtake k).map fun a => (printed a).bytes.length).sum := by
  have hlen : accessLogEntryEncodedLen = (fun r : LogRow => r.bytes.length) ∘ entryRow := by
    funext e
    exact (entryRow_length e).symm
  rw [tailLen, hlen, ← List.map_map, rtake_printed, List.map_map]
  rfl

theorem entryRow_fields {e : AccessEntry} (he : Terminated e) :
    (entryRow e).user.length ≤ 255 ∧ (entryRow e).addr.length ≤ 255 := he

/-- The payload of any log is the longest suffix of its calls that fits. -/
theorem payload_of_calls (calls : List Access) (stack : List UInt8)
    (hstack : stack.length = MON_RESPONSE_PAYLOAD_MAX) :
    ∃ payload off kept,
      accessLogPayload (calls.foldl accessLogAdd accessLogInit) stack = some (payload, off) ∧
      payload.length = MON_RESPONSE_PAYLOAD_MAX ∧ off ≤ MON_RESPONSE_PAYLOAD_MAX ∧
      (UInt16.ofNat off).toNat = off ∧
      LongestSuffix (fun a => (printed a).bytes.length)
        (MON_RESPONSE_PAYLOAD_MAX - MON_ACCESS_LOG_COUNT_LEN) (calls.rtake MAX_LOG_ENTRIES) kept ∧
      off = MON_ACCESS_LOG_COUNT_LEN + (kept.map fun a => (printed a).bytes.length).sum ∧
      (beU16 (payload.getD 0 0) (payload.getD 1 0)).toNat = kept.length ∧
      monFormatAccessLog (some (payload.take off)) = (kept.map printed, true) := by
  obtain ⟨k, payload, hle, hpayload, ⟨hlen, hoff, htake⟩, hfit, hstop⟩ :=
    accessLogPayload_spec (terminated_of_calls calls) hstack
  have hcount : (calls.foldl accessLogAdd accessLogInit).count =
      (calls.rtake MAX_LOG_ENTRIES).length := by
    rw [← CircularArray.contents_length, contents_of_calls, List.length_map]
  have hkept : ((calls.rtake MAX_LOG_ENTRIES).rtake k).length = k := by
    rw [List.rtake, List.length_drop]
    omega
  have hmax : MON_RESPONSE_PAYLOAD_MAX = 4092 := rfl
  have hwindow : (calls.rtake MAX_LOG_ENTRIES).length ≤ 1024 := by
    rw [List.rtake, List.length_drop]
    unfold MAX_LOG_ENTRIES
    omega
  rw [rtake_printed] at htake
  refine ⟨payload, _, (calls.rtake MAX_LOG_ENTRIES).rtake k, hpayload, hlen, hfit, ?_, ?_,
    by rw [tailLen_printed], ?_, ?_⟩
  · rw [UInt16.toNat_ofNat']
    omega
  · rw [tailLen_printed] at hfit
    have hsuffix : (calls.rtake MAX_LOG_ENTRIES).rtake k <:+ calls.rtake MAX_LOG_ENTRIES :=
      List.drop_suffix _ _
    apply longestSuffix_of_stop hsuffix
    · unfold MON_ACCESS_LOG_COUNT_LEN at hfit ⊢
      omega
    · intro pre x hsplit
      have htotal := congrArg List.length hsplit
      rw [List.length_append, List.length_cons, hkept] at htotal
      have hnext : (calls.rtake MAX_LOG_ENTRIES).rtake (k + 1) =
          x :: (calls.rtake MAX_LOG_ENTRIES).rtake k := by
        rw [List.rtake, htotal, Nat.add_sub_cancel]
        exact (congrArg (List.drop pre.length) hsplit).trans List.drop_left
      have hover := hstop (by omega)
      rw [tailLen_printed, hnext, List.map_cons, List.sum_cons] at hover
      unfold MON_ACCESS_LOG_COUNT_LEN at hover ⊢
      omega
  · have hsplit := List.take_append_drop (MON_ACCESS_LOG_COUNT_LEN +
      tailLen (calls.foldl accessLogAdd accessLogInit) k) payload
    rw [htake, List.append_assoc] at hsplit
    rw [← hsplit, beU16_count (by omega), hkept]
  · have hrows : (((calls.rtake MAX_LOG_ENTRIES).rtake k).map printed).length = k := by
      rw [List.length_map, hkept]
    have hfield : ∀ r ∈ ((calls.rtake MAX_LOG_ENTRIES).rtake k).map printed,
        r.user.length ≤ 255 ∧ r.addr.length ≤ 255 := by
      intro r hr
      obtain ⟨a, -, rfl⟩ := List.mem_map.mp hr
      exact entryRow_fields (terminated_entry a)
    rw [htake]
    have hformat := monFormatAccessLog_rows (by omega) hfield
    rw [hrows] at hformat
    exact hformat

/-- Access log report: the payload is the longest suffix of the history that
fits, its count and its length are right, no write leaves the array, and the
client reads every entry back. -/
theorem access_log_report (calls : List Access) (hcalls : ∀ a ∈ calls, a.Fits)
    (stack : List UInt8) (hstack : stack.length = MON_RESPONSE_PAYLOAD_MAX) :
    ∃ payload off kept,
      accessLogPayload (calls.foldl accessLogAdd accessLogInit) stack = some (payload, off) ∧
      payload.length = MON_RESPONSE_PAYLOAD_MAX ∧ off ≤ MON_RESPONSE_PAYLOAD_MAX ∧
      (UInt16.ofNat off).toNat = off ∧
      LongestSuffix (fun a => (accessRow a).bytes.length)
        (MON_RESPONSE_PAYLOAD_MAX - MON_ACCESS_LOG_COUNT_LEN) (calls.rtake MAX_LOG_ENTRIES) kept ∧
      off = MON_ACCESS_LOG_COUNT_LEN + (kept.map fun a => (accessRow a).bytes.length).sum ∧
      (beU16 (payload.getD 0 0) (payload.getD 1 0)).toNat = kept.length ∧
      monFormatAccessLog (some (payload.take off)) = (kept.map accessRow, true) := by
  obtain ⟨payload, off, kept, hpayload, hlen, hfit, hoff, hlongest, hsum, hcount, hformat⟩ :=
    payload_of_calls calls stack hstack
  have hrow : ∀ a ∈ calls.rtake MAX_LOG_ENTRIES, printed a = accessRow a :=
    fun a ha => entryRow_entry (hcalls a (List.drop_subset _ _ ha))
  have hkept : ∀ a ∈ kept, printed a = accessRow a :=
    fun a ha => hrow a (hlongest.suffix.subset ha)
  refine ⟨payload, off, kept, hpayload, hlen, hfit, hoff, ?_, ?_, hcount, ?_⟩
  · exact hlongest.congr fun a ha => by rw [hrow a ha]
  · rw [hsum, List.map_congr_left fun a ha => by rw [hkept a ha]]
  · rw [hformat, List.map_congr_left hkept]

/-- Three calls, one without a user name. -/
theorem access_log_report_three :
    let calls : List Access := [⟨some [97], some [98, 99], 443, 5⟩, ⟨none, some [100], 80, 6⟩,
      ⟨some [97], none, 0, -1⟩]
    ∃ payload off, accessLogPayload (calls.foldl accessLogAdd accessLogInit)
        (List.replicate MON_RESPONSE_PAYLOAD_MAX 0xAA) = some (payload, off) ∧
      (monFormatAccessLog (some (payload.take off))).2 = true := by
  have hfits : ∀ a ∈ ([⟨some [97], some [98, 99], 443, 5⟩, ⟨none, some [100], 80, 6⟩,
      ⟨some [97], none, 0, -1⟩] : List Access), a.Fits := by
    intro a ha
    simp only [List.mem_cons, List.not_mem_nil, or_false] at ha
    rcases ha with rfl | rfl | rfl
    all_goals simp [Access.Fits, Access.user, Access.dest, DASH, MAX_CRED_LEN]
  obtain ⟨payload, off, kept, hpayload, -, -, -, -, -, -, hformat⟩ :=
    access_log_report _ hfits (List.replicate MON_RESPONSE_PAYLOAD_MAX 0xAA) (List.length_replicate)
  exact ⟨payload, off, hpayload, by rw [hformat]⟩

end History

end SocksProxy.AccessReport
