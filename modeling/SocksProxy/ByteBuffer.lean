import Mathlib.Data.List.Basic
import Mathlib.Data.Int.Notation
import Mathlib.Tactic.Common

/-!
The direct-access buffer of buffer.c: a fixed array, a read pointer and a write
pointer. Pointers are offsets from `data`, and the C assertions on them are
fields, so a buffer with crossed pointers cannot be built. A caller that moves
a pointer has to show that it stays inside, as `assert` checks at run time.
-/
namespace SocksProxy.ByteBuffer

/-- `struct buffer`: `limit` is the end of the array. -/
structure Buffer where
  data : List UInt8
  read : ℕ
  write : ℕ
  read_le_write : read ≤ write
  write_le_limit : write ≤ data.length
  deriving DecidableEq

/-- The array after a caller stored `bytes` at offset `i`. -/
def store (data : List UInt8) (i : ℕ) (bytes : List UInt8) : List UInt8 :=
  data.take i ++ bytes ++ data.drop (i + bytes.length)

theorem store_length (data : List UInt8) (i : ℕ) (bytes : List UInt8)
    (h : i + bytes.length ≤ data.length) : (store data i bytes).length = data.length := by
  simp only [store, List.length_append, List.length_take, List.length_drop]
  omega

def bufferLimit (b : Buffer) : ℕ := b.data.length

/-- buffer_init over a zeroed array of `n` bytes. -/
def bufferInit (n : ℕ) : Buffer where
  data := List.replicate n 0
  read := 0
  write := 0
  read_le_write := Nat.le_refl 0
  write_le_limit := Nat.zero_le _

def bufferReset (b : Buffer) : Buffer where
  data := b.data
  read := 0
  write := 0
  read_le_write := Nat.le_refl 0
  write_le_limit := Nat.zero_le _

def bufferCanWrite (b : Buffer) : Bool := 0 < bufferLimit b - b.write

/-- The count that buffer_write_ptr offers. -/
def bufferWritePtr (b : Buffer) : ℕ := bufferLimit b - b.write

def bufferCanRead (b : Buffer) : Bool := 0 < b.write - b.read

/-- The bytes that buffer_read_ptr offers. -/
def bufferReadPtr (b : Buffer) : List UInt8 := (b.data.drop b.read).take (b.write - b.read)

theorem bufferReadPtr_length (b : Buffer) : (bufferReadPtr b).length = b.write - b.read := by
  have hw := b.write_le_limit
  simp only [bufferReadPtr, List.length_take, List.length_drop]
  omega

/-- Stores through the pointer of buffer_write_ptr, before the advance. -/
def bufferStore (b : Buffer) (bytes : List UInt8) (h : bytes.length ≤ bufferWritePtr b) :
    Buffer where
  data := store b.data b.write bytes
  read := b.read
  write := b.write
  read_le_write := b.read_le_write
  write_le_limit := by
    have hw := b.write_le_limit
    rw [store_length _ _ _ (by unfold bufferWritePtr bufferLimit at h; omega)]
    exact hw

/-- A negative count, as read() returns on error, moves nothing. -/
def bufferWriteAdv (b : Buffer) (bytes : ℤ) (h : bytes.toNat ≤ bufferWritePtr b) : Buffer where
  data := b.data
  read := b.read
  write := if bytes > -1 then b.write + bytes.toNat else b.write
  read_le_write := by have hr := b.read_le_write; split <;> omega
  write_le_limit := by
    have hw := b.write_le_limit
    unfold bufferWritePtr bufferLimit at h
    split <;> omega

def bufferCompact (b : Buffer) : Buffer :=
  if b.read = 0 then b
  else if b.read = b.write then bufferReset b
  else
    -- memmove(data, read, n): the tail of the array keeps its old bytes
    { data := store b.data 0 (bufferReadPtr b)
      read := 0
      write := (bufferReadPtr b).length
      read_le_write := Nat.zero_le _
      write_le_limit := by
        have hw := b.write_le_limit
        have hl := bufferReadPtr_length b
        rw [store_length _ _ _ (by omega)]
        omega }

def bufferReadAdv (b : Buffer) (bytes : ℤ) (h : bytes.toNat ≤ (bufferReadPtr b).length) :
    Buffer :=
  if bytes > -1 then
    let moved : Buffer :=
      { data := b.data
        read := b.read + bytes.toNat
        write := b.write
        read_le_write := by
          have hr := b.read_le_write
          rw [bufferReadPtr_length] at h
          omega
        write_le_limit := b.write_le_limit }
    if moved.read = moved.write then bufferCompact moved else moved
  else b

/-- buffer_read: the next byte, or 0 and no move on an empty buffer. -/
def bufferRead (b : Buffer) : UInt8 × Buffer :=
  if h : bufferCanRead b then
    ((bufferReadPtr b).headD 0, bufferReadAdv b 1 (by
      rw [bufferReadPtr_length]
      simpa [bufferCanRead, Nat.succ_le_iff] using h))
  else (0, b)

/-- buffer_write: one byte, dropped when the buffer is full. -/
def bufferWrite (b : Buffer) (c : UInt8) : Buffer :=
  if h : bufferCanWrite b then
    bufferWriteAdv (bufferStore b [c] (by
        simpa [bufferCanWrite, bufferWritePtr, Nat.succ_le_iff] using h)) 1 (by
      have hc : 0 < bufferLimit b - b.write := by simpa [bufferCanWrite] using h
      have hlen := store_length b.data b.write [c] (by
        simp only [List.length_singleton]
        unfold bufferLimit at hc
        omega)
      simp only [bufferWritePtr, bufferLimit, bufferStore, hlen]
      unfold bufferLimit at hc
      omega)
  else b

/-- The two calls of every producer: store `bytes` at the write pointer, then
advance by as many. -/
def bufferPut (b : Buffer) (bytes : List UInt8) (h : bytes.length ≤ bufferWritePtr b) : Buffer :=
  bufferWriteAdv (bufferStore b bytes h) bytes.length (by
    have hw := b.write_le_limit
    unfold bufferWritePtr bufferLimit at h
    simp only [Int.toNat_natCast, bufferWritePtr, bufferLimit, bufferStore]
    rw [store_length _ _ _ (by omega)]
    exact h)

section Contents

@[simp] theorem bufferLimit_init (n : ℕ) : bufferLimit (bufferInit n) = n := by
  simp [bufferLimit, bufferInit]

@[simp] theorem bufferReadPtr_init (n : ℕ) : bufferReadPtr (bufferInit n) = [] := by
  simp [bufferReadPtr, bufferInit]

@[simp] theorem bufferWritePtr_init (n : ℕ) : bufferWritePtr (bufferInit n) = n := by
  simp [bufferWritePtr, bufferLimit, bufferInit]

@[simp] theorem bufferLimit_reset (b : Buffer) : bufferLimit (bufferReset b) = bufferLimit b := rfl

@[simp] theorem bufferReadPtr_reset (b : Buffer) : bufferReadPtr (bufferReset b) = [] := by
  simp [bufferReadPtr, bufferReset]

@[simp] theorem bufferWritePtr_reset (b : Buffer) :
    bufferWritePtr (bufferReset b) = bufferLimit b := rfl

theorem bufferCanRead_iff (b : Buffer) : bufferCanRead b = true ↔ bufferReadPtr b ≠ [] := by
  rw [← List.length_pos_iff, bufferReadPtr_length]
  simp [bufferCanRead]

theorem bufferCanRead_eq_false_iff (b : Buffer) :
    bufferCanRead b = false ↔ bufferReadPtr b = [] := by
  rw [← Bool.not_eq_true, bufferCanRead_iff, ne_eq, not_not]

theorem bufferCanWrite_iff (b : Buffer) : bufferCanWrite b = true ↔ 0 < bufferWritePtr b := by
  simp [bufferCanWrite, bufferWritePtr]

/-- Readable bytes and free room never overlap. -/
theorem bufferReadPtr_length_add_le (b : Buffer) :
    (bufferReadPtr b).length + bufferWritePtr b ≤ bufferLimit b := by
  have hr := b.read_le_write
  have hw := b.write_le_limit
  rw [bufferReadPtr_length]
  unfold bufferWritePtr bufferLimit
  omega

@[simp] theorem bufferLimit_put (b : Buffer) (l : List UInt8) (h : l.length ≤ bufferWritePtr b) :
    bufferLimit (bufferPut b l h) = bufferLimit b := by
  have hw := b.write_le_limit
  unfold bufferWritePtr bufferLimit at h
  simp only [bufferPut, bufferLimit, bufferWriteAdv, bufferStore]
  exact store_length _ _ _ (by omega)

private theorem bufferPut_write (b : Buffer) (l : List UInt8)
    (h : l.length ≤ bufferWritePtr b) : (bufferPut b l h).write = b.write + l.length := by
  simp only [bufferPut, bufferWriteAdv, bufferStore, Int.toNat_natCast]
  rw [if_pos (by omega)]

@[simp] theorem bufferWritePtr_put (b : Buffer) (l : List UInt8)
    (h : l.length ≤ bufferWritePtr b) :
    bufferWritePtr (bufferPut b l h) = bufferWritePtr b - l.length := by
  have hlim := bufferLimit_put b l h
  simp only [bufferWritePtr, hlim, bufferPut_write]
  omega

/-- What a producer stored is appended to what was readable. -/
@[simp] theorem bufferReadPtr_put (b : Buffer) (l : List UInt8)
    (h : l.length ≤ bufferWritePtr b) :
    bufferReadPtr (bufferPut b l h) = bufferReadPtr b ++ l := by
  have hr := b.read_le_write
  have hw := b.write_le_limit
  have hsplit : b.write + l.length - b.read = (b.write - b.read) + l.length := by omega
  have htake : b.write ≤ (b.data.take b.write).length := by
    rw [List.length_take]
    omega
  have hdata : (bufferPut b l h).data = store b.data b.write l := rfl
  have hread : (bufferPut b l h).read = b.read := rfl
  unfold bufferReadPtr
  rw [bufferPut_write, hdata, hread, hsplit, store, List.append_assoc,
    List.drop_append_of_le_length (by omega)]
  have hlen : ((b.data.take b.write).drop b.read).length = b.write - b.read := by
    simp only [List.length_drop, List.length_take]
    omega
  rw [List.take_append, hlen, List.take_of_length_le (by omega), List.drop_take]
  have hrest : b.write - b.read + l.length - (b.write - b.read) = l.length := by omega
  rw [hrest, List.take_left]

@[simp] theorem bufferLimit_compact (b : Buffer) :
    bufferLimit (bufferCompact b) = bufferLimit b := by
  have hl := bufferReadPtr_length b
  have hw := b.write_le_limit
  unfold bufferCompact
  split
  · rfl
  · split
    · rfl
    · exact store_length _ _ _ (by omega)

/-- Compaction moves bytes but never changes which bytes are readable. -/
@[simp] theorem bufferReadPtr_compact (b : Buffer) :
    bufferReadPtr (bufferCompact b) = bufferReadPtr b := by
  unfold bufferCompact
  split
  · rfl
  · split
    next heq => simp [bufferReadPtr, bufferReset, heq]
    · simp only [bufferReadPtr, store, List.take_zero, List.nil_append, List.drop_zero,
        Nat.sub_zero]
      exact List.take_left

theorem bufferReadPtr_readAdv (b : Buffer) (n : ℕ)
    (h : (n : ℤ).toNat ≤ (bufferReadPtr b).length) :
    bufferReadPtr (bufferReadAdv b n h) = (bufferReadPtr b).drop n := by
  have hmoved : ((b.data.drop (b.read + n)).take (b.write - (b.read + n))) =
      (bufferReadPtr b).drop n := by
    rw [bufferReadPtr, List.drop_take, List.drop_drop]
    congr 1
    omega
  unfold bufferReadAdv
  rw [if_pos (by omega)]
  dsimp only
  split
  · rw [bufferReadPtr_compact]
    simpa only [bufferReadPtr, Int.toNat_natCast] using hmoved
  · simpa only [bufferReadPtr, Int.toNat_natCast] using hmoved

@[simp] theorem bufferLimit_readAdv (b : Buffer) (n : ℤ)
    (h : n.toNat ≤ (bufferReadPtr b).length) :
    bufferLimit (bufferReadAdv b n h) = bufferLimit b := by
  unfold bufferReadAdv
  split
  · dsimp only
    split
    · rw [bufferLimit_compact]
      rfl
    · rfl
  · rfl

/-- The write pointer stays where it is until the last byte is read; then the
whole array is free again. -/
theorem bufferWritePtr_readAdv (b : Buffer) (n : ℕ)
    (h : (n : ℤ).toNat ≤ (bufferReadPtr b).length) :
    bufferWritePtr (bufferReadAdv b n h) =
      if n = (bufferReadPtr b).length then bufferLimit b else bufferWritePtr b := by
  have hlen := bufferReadPtr_length b
  have hr := b.read_le_write
  rw [Int.toNat_natCast] at h
  unfold bufferReadAdv
  rw [if_pos (by omega)]
  dsimp only
  simp only [Int.toNat_natCast]
  by_cases hall : n = (bufferReadPtr b).length
  · rw [if_pos (by omega), if_pos hall]
    unfold bufferCompact
    dsimp only
    split
    next h0 => simp only [bufferWritePtr, bufferLimit]; omega
    next h0 =>
      rw [if_pos (by omega)]
      rfl
  · rw [if_neg (by omega), if_neg hall]
    rfl

/-- buffer_read takes the first readable byte. -/
theorem bufferRead_cons {b : Buffer} {c : UInt8} {l : List UInt8}
    (h : bufferReadPtr b = c :: l) :
    (bufferRead b).1 = c ∧ bufferReadPtr (bufferRead b).2 = l ∧
      bufferLimit (bufferRead b).2 = bufferLimit b ∧
      bufferWritePtr (bufferRead b).2 =
        if l = [] then bufferLimit b else bufferWritePtr b := by
  have hcan : bufferCanRead b = true := by
    rw [bufferCanRead_iff, h]
    exact List.cons_ne_nil c l
  have hone : ((1 : ℕ) : ℤ).toNat ≤ (bufferReadPtr b).length := by
    rw [h]
    simp
  unfold bufferRead
  rw [dif_pos hcan]
  have hread := bufferReadPtr_readAdv b 1 hone
  have hroom := bufferWritePtr_readAdv b 1 hone
  rw [h, List.drop_one, List.tail_cons] at hread
  have hlast : 1 = (c :: l).length ↔ l = [] := by
    rw [List.length_cons, ← List.length_eq_zero_iff]
    omega
  rw [h] at hroom
  simp only [hlast] at hroom
  exact ⟨by rw [h]; rfl, hread, bufferLimit_readAdv b _ hone, hroom⟩

end Contents

end SocksProxy.ByteBuffer
