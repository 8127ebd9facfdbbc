import SocksProxy.ByteBuffer
import SocksProxy.Runs

/-!
The buffer as a queue of bytes. A run of its operations is recorded with what was
written into it and what was taken out or discarded; the bytes between the two
pointers are always the difference. A buffer that runs empty has all its room.
-/
namespace SocksProxy.BufferFifo

open ByteBuffer Runs

variable {b b' : Buffer} {n : ℕ} {c : UInt8} {l bytes : List UInt8}

section Moves

theorem bufferLimit_writeAdv (k : ℤ) (h : k.toNat ≤ bufferWritePtr b) :
    bufferLimit (bufferWriteAdv b k h) = bufferLimit b := rfl

theorem bufferWriteAdv_write (k : ℤ) (h : k.toNat ≤ bufferWritePtr b) :
    (bufferWriteAdv b k h).write = b.write + k.toNat := by
  simp only [bufferWriteAdv]
  split <;> omega

theorem bufferLimit_store (h : bytes.length ≤ bufferWritePtr b) :
    bufferLimit (bufferStore b bytes h) = bufferLimit b := by
  have hw := b.write_le_limit
  unfold bufferWritePtr bufferLimit at h
  exact store_length _ _ _ (by omega)

theorem bufferWritePtr_store (h : bytes.length ≤ bufferWritePtr b) :
    bufferWritePtr (bufferStore b bytes h) = bufferWritePtr b := by
  rw [bufferWritePtr, bufferLimit_store h]
  rfl

/-- A producer stores `bytes` and advances over the first `k` of them. -/
def fill (b : Buffer) (bytes : List UInt8) (k : ℤ) (h : bytes.length ≤ bufferWritePtr b)
    (hk : k.toNat ≤ bytes.length) : Buffer :=
  bufferWriteAdv (bufferStore b bytes h) k (by
    rw [bufferWritePtr_store h]
    exact Nat.le_trans hk h)

variable {k : ℤ} (h : bytes.length ≤ bufferWritePtr b) (hk : k.toNat ≤ bytes.length)

theorem bufferLimit_fill : bufferLimit (fill b bytes k h hk) = bufferLimit b := by
  rw [fill, bufferLimit_writeAdv, bufferLimit_store]

theorem bufferWritePtr_fill :
    bufferWritePtr (fill b bytes k h hk) = bufferWritePtr b - k.toNat := by
  have hwrite : (fill b bytes k h hk).write = b.write + k.toNat := bufferWriteAdv_write k _
  rw [bufferWritePtr, bufferLimit_fill, hwrite, bufferWritePtr]
  omega

theorem bufferReadPtr_fill :
    bufferReadPtr (fill b bytes k h hk) = bufferReadPtr b ++ bytes.take k.toNat := by
  have hr := b.read_le_write
  have hw := b.write_le_limit
  have hwrite : (fill b bytes k h hk).write = b.write + k.toNat := bufferWriteAdv_write k _
  have hdata : (fill b bytes k h hk).data = store b.data b.write bytes := rfl
  have hread : (fill b bytes k h hk).read = b.read := rfl
  have hsplit : b.write + k.toNat - b.read = (b.write - b.read) + k.toNat := by omega
  have hlen : ((b.data.take b.write).drop b.read).length = b.write - b.read := by
    simp only [List.length_drop, List.length_take]
    omega
  have hfront : b.read ≤ (b.data.take b.write).length := by
    rw [List.length_take]
    omega
  unfold bufferReadPtr
  rw [hwrite, hdata, hread, hsplit, store, List.append_assoc, List.drop_append_of_le_length hfront,
    List.take_append, hlen, List.take_of_length_le (by omega), Nat.add_sub_cancel_left,
    List.take_append_of_le_length hk, List.drop_take]

omit h hk

/-- The readable bytes move to the front; what is left is room. -/
theorem bufferWritePtr_compact :
    bufferWritePtr (bufferCompact b) = bufferLimit b - (bufferReadPtr b).length := by
  have hlimit := bufferLimit_compact b
  have hlen := bufferReadPtr_length b
  rw [bufferWritePtr, hlimit]
  unfold bufferCompact
  split
  next hzero => omega
  next =>
    split
    next heq =>
      have hnone : (bufferReadPtr b).length = 0 := by omega
      rw [hnone]
      rfl
    next => rfl

theorem bufferReadAdv_neg (hneg : k < 0) (hk : k.toNat ≤ (bufferReadPtr b).length) :
    bufferReadAdv b k hk = b := if_neg (by omega)

theorem bufferWrite_full (hfull : bufferWritePtr b = 0) (c : UInt8) : bufferWrite b c = b := by
  have hcannot : ¬ bufferCanWrite b = true := by
    rw [bufferCanWrite_iff]
    omega
  exact dif_neg hcannot

theorem bufferWrite_room (hroom : 0 < bufferWritePtr b) (c : UInt8) :
    bufferWrite b c = fill b [c] 1 hroom (Nat.le_refl 1) :=
  dif_pos ((bufferCanWrite_iff b).mpr hroom)

theorem bufferRead_empty (hempty : bufferReadPtr b = []) : bufferRead b = (0, b) := by
  have hcannot : ¬ bufferCanRead b = true := by
    rw [bufferCanRead_iff]
    exact not_not_intro hempty
  exact dif_neg hcannot

end Moves

section Operations

/-- One use of the buffer. `fill` is buffer_write_ptr, a store of at most as many bytes
as it offers, and buffer_write_adv; a count may be negative. -/
inductive BufferOp
  | fill (bytes : List UInt8) (k : ℤ)
  | readAdv (k : ℤ)
  | read
  | write (c : UInt8)
  | compact
  | reset

/-- A buffer, all that was written into it, and all that was read or thrown away. -/
structure Logged where
  buffer : Buffer
  written : List UInt8
  consumed : List UInt8

def loggedInit (n : ℕ) : Logged :=
  { buffer := bufferInit n, written := [], consumed := [] }

/-- `none` when the caller advances over bytes that it was not offered. -/
def apply (s : Logged) : BufferOp → Option Logged
  | .fill bytes k =>
    if h : bytes.length ≤ bufferWritePtr s.buffer ∧ k.toNat ≤ bytes.length then
      some { s with
        buffer := fill s.buffer bytes k h.1 h.2
        written := s.written ++ bytes.take k.toNat }
    else none
  | .readAdv k =>
    if h : k.toNat ≤ (bufferReadPtr s.buffer).length then
      some { s with
        buffer := bufferReadAdv s.buffer k h
        consumed := s.consumed ++ (bufferReadPtr s.buffer).take k.toNat }
    else none
  | .read =>
    some { s with
      buffer := (bufferRead s.buffer).2
      consumed := s.consumed ++
        if bufferCanRead s.buffer then [(bufferRead s.buffer).1] else [] }
  | .write c =>
    some { s with
      buffer := bufferWrite s.buffer c
      written := s.written ++ if bufferCanWrite s.buffer then [c] else [] }
  | .compact => some { s with buffer := bufferCompact s.buffer }
  | .reset =>
    some { s with
      buffer := bufferReset s.buffer
      consumed := s.consumed ++ bufferReadPtr s.buffer }

def Step (s : Logged) (op : BufferOp) (t : Logged) : Prop := apply s op = some t

/-- A queue of capacity `n` that holds what was written and not consumed. -/
structure Queue (n : ℕ) (s : Logged) : Prop where
  limit_eq : bufferLimit s.buffer = n
  written_eq : s.written = s.consumed ++ bufferReadPtr s.buffer
  room_of_empty : bufferReadPtr s.buffer = [] → bufferWritePtr s.buffer = n

variable {s t : Logged} {op : BufferOp}

theorem init_queue (n : ℕ) : Queue n (loggedInit n) where
  limit_eq := bufferLimit_init n
  written_eq := by simp [loggedInit]
  room_of_empty := fun _ => bufferWritePtr_init n

theorem fill_queue (h : Queue n s) (k : ℤ) (hfits : bytes.length ≤ bufferWritePtr s.buffer)
    (hk : k.toNat ≤ bytes.length) :
    Queue n { s with
      buffer := fill s.buffer bytes k hfits hk
      written := s.written ++ bytes.take k.toNat } where
  limit_eq := (bufferLimit_fill hfits hk).trans h.limit_eq
  written_eq := by
    rw [bufferReadPtr_fill, ← List.append_assoc, ← h.written_eq]
  room_of_empty := by
    intro hempty
    rw [bufferReadPtr_fill, List.append_eq_nil_iff] at hempty
    -- nothing was stored, since what was stored would be readable
    have hlen := congrArg List.length hempty.2
    rw [List.length_take, List.length_nil] at hlen
    have hnone : k.toNat = 0 := by omega
    rw [bufferWritePtr_fill, hnone, h.room_of_empty hempty.1, Nat.sub_zero]

theorem readAdv_queue (h : Queue n s) (k : ℤ) (hk : k.toNat ≤ (bufferReadPtr s.buffer).length) :
    Queue n { s with
      buffer := bufferReadAdv s.buffer k hk
      consumed := s.consumed ++ (bufferReadPtr s.buffer).take k.toNat } := by
  by_cases hneg : k < 0
  · have hnone : k.toNat = 0 := by omega
    rw [bufferReadAdv_neg hneg, hnone, List.take_zero, List.append_nil]
    exact h
  · obtain ⟨m, rfl⟩ := Int.eq_ofNat_of_zero_le (Int.not_lt.mp hneg)
    have hread := bufferReadPtr_readAdv s.buffer m hk
    refine ⟨(bufferLimit_readAdv _ _ _).trans h.limit_eq, ?_, ?_⟩
    · show s.written = _ ++ bufferReadPtr (bufferReadAdv s.buffer m hk)
      rw [hread, Int.toNat_natCast, List.append_assoc, List.take_append_drop]
      exact h.written_eq
    · intro hempty
      have hall : m = (bufferReadPtr s.buffer).length := by
        rw [hread, List.drop_eq_nil_iff] at hempty
        rw [Int.toNat_natCast] at hk
        omega
      rw [bufferWritePtr_readAdv, if_pos hall]
      exact h.limit_eq

theorem read_queue (h : Queue n s) :
    Queue n { s with
      buffer := (bufferRead s.buffer).2
      consumed := s.consumed ++
        if bufferCanRead s.buffer then [(bufferRead s.buffer).1] else [] } := by
  cases hread : bufferReadPtr s.buffer with
  | nil =>
    rw [(bufferCanRead_eq_false_iff _).mpr hread, bufferRead_empty hread]
    simpa using h
  | cons c l =>
    obtain ⟨hbyte, hrest, hlimit, hroom⟩ := bufferRead_cons hread
    have hcan : bufferCanRead s.buffer = true := by
      rw [bufferCanRead_iff, hread]
      exact List.cons_ne_nil c l
    refine ⟨hlimit.trans h.limit_eq, ?_, ?_⟩
    · rw [if_pos hcan, hbyte, hrest, List.append_assoc, List.singleton_append, ← hread]
      exact h.written_eq
    · intro hempty
      rw [hroom, if_pos (hrest ▸ hempty)]
      exact h.limit_eq

theorem write_queue (h : Queue n s) (c : UInt8) :
    Queue n { s with
      buffer := bufferWrite s.buffer c
      written := s.written ++ if bufferCanWrite s.buffer then [c] else [] } := by
  rcases Nat.eq_zero_or_pos (bufferWritePtr s.buffer) with hfull | hroom
  · have hcannot : ¬ bufferCanWrite s.buffer = true := by
      rw [bufferCanWrite_iff]
      omega
    rw [if_neg hcannot, bufferWrite_full hfull, List.append_nil]
    exact h
  · rw [if_pos ((bufferCanWrite_iff _).mpr hroom), bufferWrite_room hroom]
    exact fill_queue h 1 _ _

theorem compact_queue (h : Queue n s) : Queue n { s with buffer := bufferCompact s.buffer } where
  limit_eq := (bufferLimit_compact _).trans h.limit_eq
  written_eq := by
    rw [bufferReadPtr_compact]
    exact h.written_eq
  room_of_empty := by
    intro hempty
    rw [bufferReadPtr_compact] at hempty
    rw [bufferWritePtr_compact, hempty, h.limit_eq]
    rfl

theorem reset_queue (h : Queue n s) :
    Queue n { s with
      buffer := bufferReset s.buffer
      consumed := s.consumed ++ bufferReadPtr s.buffer } where
  limit_eq := h.limit_eq
  written_eq := by
    rw [bufferReadPtr_reset, List.append_nil]
    exact h.written_eq
  room_of_empty := fun _ => h.limit_eq

/-- One operation keeps the queue. -/
theorem step_queue (h : Queue n s) (hstep : Step s op t) : Queue n t := by
  cases op with
  | fill bytes k =>
    obtain ⟨hargs, hsome⟩ := Option.dite_none_right_eq_some.mp hstep
    obtain rfl := Option.some.inj hsome
    exact fill_queue h k hargs.1 hargs.2
  | readAdv k =>
    obtain ⟨hk, hsome⟩ := Option.dite_none_right_eq_some.mp hstep
    obtain rfl := Option.some.inj hsome
    exact readAdv_queue h k hk
  | read =>
    obtain rfl := Option.some.inj hstep
    exact read_queue h
  | write c =>
    obtain rfl := Option.some.inj hstep
    exact write_queue h c
  | compact =>
    obtain rfl := Option.some.inj hstep
    exact compact_queue h
  | reset =>
    obtain rfl := Option.some.inj hstep
    exact reset_queue h

theorem run_queue {ops : List BufferOp} (h : Run Step (loggedInit n) ops s) : Queue n s :=
  h.invariant (init_queue n) step_queue

end Operations

/-- Whatever the operations, the pointers stay in order and the buffer holds what was
written and not yet read. Compaction moves no byte out of it, an operation that finds
no room or no byte does nothing, and an empty buffer offers its whole capacity. -/
theorem buffer_bounded_fifo {ops : List BufferOp} {s : Logged}
    (h : Run Step (loggedInit n) ops s) :
    s.buffer.read ≤ s.buffer.write ∧ s.buffer.write ≤ bufferLimit s.buffer ∧
    bufferLimit s.buffer = n ∧
    s.written = s.consumed ++ bufferReadPtr s.buffer ∧
    bufferReadPtr (bufferCompact s.buffer) = bufferReadPtr s.buffer ∧
    (∀ c l, bufferReadPtr s.buffer = c :: l → (bufferRead s.buffer).1 = c) ∧
    (bufferWritePtr s.buffer = 0 → ∀ c, bufferWrite s.buffer c = s.buffer) ∧
    (bufferReadPtr s.buffer = [] →
      bufferRead s.buffer = (0, s.buffer) ∧ bufferWritePtr s.buffer = n) ∧
    bufferWritePtr (bufferReset s.buffer) = n := by
  have hqueue := run_queue h
  refine ⟨s.buffer.read_le_write, s.buffer.write_le_limit, hqueue.limit_eq, hqueue.written_eq,
    bufferReadPtr_compact _, ?_, bufferWrite_full, ?_, hqueue.limit_eq⟩
  · intro c l hread
    exact (bufferRead_cons hread).1
  · intro hempty
    exact ⟨bufferRead_empty hempty, hqueue.room_of_empty hempty⟩

/-- Three bytes are written into a buffer of four and two of them read. -/
theorem buffer_bounded_fifo_four : ∃ s, Run Step (loggedInit 4)
      [.fill [1, 2, 3, 9] 3, .readAdv (-1), .read, .readAdv 1] s ∧
    s.written = [1, 2, 3] ∧ s.consumed = [1, 2] ∧
    s.written = s.consumed ++ bufferReadPtr s.buffer := by
  have hrun : Run Step (loggedInit 4) [.fill [1, 2, 3, 9] 3, .readAdv (-1), .read, .readAdv 1]
      ⟨⟨[1, 2, 3, 9], 2, 3, by decide, by decide⟩, [1, 2, 3], [1, 2]⟩ :=
    Run.of_foldlM id (by rfl)
  exact ⟨_, hrun, rfl, rfl, (buffer_bounded_fifo hrun).2.2.2.1⟩

end SocksProxy.BufferFifo
