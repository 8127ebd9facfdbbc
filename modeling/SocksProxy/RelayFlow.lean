import SocksProxy.Dialing

/-!
One direction of the relay: the bytes read from a source side fill a buffer that
is emptied to the other side. `Flowing` says that the bytes written and the bytes
still in the buffer are the bytes read, and that the destination was shut down,
if at all, after all of them. Each call a handler can make keeps it.
-/
namespace SocksProxy.RelayFlow

open ByteBuffer ByteScan Hello Auth Request UserTable Kernel Stm ConnState Connect Connection
open Stages Dialing

variable {t : List Call} {c c' : Conn} {d : Side} {call : Call}

/-- End of file was read from `d`. -/
def SawEof (d : Side) (t : List Call) : Prop := ∃ n, .read d n .eof ∈ t

/-- The far end of a direction is shut down once, when everything read from `d`
has been written to it, and not written to any more. -/
def ShutAfterEof (d : Side) (t : List Call) : Prop :=
  ∀ pre post, t = pre ++ .shutdown (other d) :: post →
    SawEof d pre ∧ sent (other d) pre = received d pre ∧
      ∀ call ∈ post, call ≠ .shutdown (other d) ∧ ∀ bytes w, call ≠ .write (other d) bytes w

/-- The direction from `d` to the other side, over the calls `t` of the relay. -/
structure Flowing (t : List Call) (c : Conn) (d : Side) : Prop where
  bytes_eq : sent (other d) t ++ bufferReadPtr (inbound c d) = received d t
  tidy : Tidy (inbound c d)
  eof_iff : eof c d = true ↔ SawEof d t
  shut_iff : writeShutdown c (other d) = true ↔ .shutdown (other d) ∈ t
  shut_dry : writeShutdown c (other d) = true →
    eof c d = true ∧ bufferReadPtr (inbound c d) = []
  shut_after : ShutAfterEof d t

section Sides

theorem other_ne (d : Side) : other d ≠ d := by cases d <;> decide

theorem other_other (d : Side) : other (other d) = d := by cases d <;> rfl

theorem eq_other_of_ne {e : Side} (h : e ≠ d) : e = other d := by
  cases d <;> cases e <;> first | rfl | exact absurd rfl h

@[simp] theorem inbound_setInbound (c : Conn) (d : Side) (b : Buffer) :
    inbound (setInbound c d b) d = b := by cases d <;> rfl

@[simp] theorem inbound_setInbound_other (c : Conn) (d : Side) (b : Buffer) :
    inbound (setInbound c d b) (other d) = inbound c (other d) := by cases d <;> rfl

@[simp] theorem eof_setInbound (c : Conn) (d e : Side) (b : Buffer) :
    eof (setInbound c d b) e = eof c e := by cases d <;> cases e <;> rfl

@[simp] theorem writeShutdown_setInbound (c : Conn) (d e : Side) (b : Buffer) :
    writeShutdown (setInbound c d b) e = writeShutdown c e := by cases d <;> cases e <;> rfl

@[simp] theorem trace_setInbound (c : Conn) (d : Side) (b : Buffer) :
    (setInbound c d b).trace = c.trace := by cases d <;> rfl

@[simp] theorem inbound_setEof (c : Conn) (d e : Side) : inbound (setEof c d) e = inbound c e := by
  cases d <;> cases e <;> rfl

@[simp] theorem eof_setEof (c : Conn) (d : Side) : eof (setEof c d) d = true := by
  cases d <;> rfl

@[simp] theorem eof_setEof_other (c : Conn) (d : Side) :
    eof (setEof c d) (other d) = eof c (other d) := by cases d <;> rfl

@[simp] theorem writeShutdown_setEof (c : Conn) (d e : Side) :
    writeShutdown (setEof c d) e = writeShutdown c e := by cases d <;> cases e <;> rfl

@[simp] theorem trace_setEof (c : Conn) (d : Side) : (setEof c d).trace = c.trace := by
  cases d <;> rfl

@[simp] theorem inbound_log (c : Conn) (call : Call) (d : Side) :
    inbound (c.log call) d = inbound c d := by cases d <;> rfl

@[simp] theorem eof_log (c : Conn) (call : Call) (d : Side) : eof (c.log call) d = eof c d := by
  cases d <;> rfl

@[simp] theorem writeShutdown_log (c : Conn) (call : Call) (d : Side) :
    writeShutdown (c.log call) d = writeShutdown c d := by cases d <;> rfl

@[simp] theorem fdOf_log (c : Conn) (call : Call) (d : Side) : fdOf (c.log call) d = fdOf c d := by
  cases d <;> rfl

theorem setInbound_log (c : Conn) (call : Call) (d : Side) (b : Buffer) :
    setInbound (c.log call) d b = (setInbound c d b).log call := by cases d <;> rfl

end Sides

section Trace

theorem SawEof.append (h : SawEof d t) (u : List Call) : SawEof d (t ++ u) := by
  obtain ⟨n, hn⟩ := h
  exact ⟨n, List.mem_append_left u hn⟩

private theorem sawEof_snoc : SawEof d (t ++ [call]) ↔
    SawEof d t ∨ ∃ n, call = .read d n .eof := by
  constructor
  · rintro ⟨n, hn⟩
    rcases List.mem_append.mp hn with hn | hn
    · exact Or.inl ⟨n, hn⟩
    · exact Or.inr ⟨n, (List.mem_singleton.mp hn).symm⟩
  · rintro (h | ⟨n, rfl⟩)
    · exact h.append _
    · exact ⟨n, List.mem_append_right _ List.mem_cons_self⟩

/-- The last call of a trace is the one after the split, or comes later. -/
private theorem snoc_split {pre post : List Call} {x : Call}
    (h : t ++ [call] = pre ++ x :: post) :
    (post = [] ∧ pre = t ∧ x = call) ∨
      ∃ post', post = post' ++ [call] ∧ t = pre ++ x :: post' := by
  rcases List.eq_nil_or_concat post with rfl | ⟨post', y, rfl⟩
  · obtain ⟨h1, h2⟩ := List.append_inj' h rfl
    rw [List.cons.injEq] at h2
    exact Or.inl ⟨rfl, h1.symm, h2.1.symm⟩
  · right
    rw [List.concat_eq_append, ← List.cons_append, ← List.append_assoc] at h
    obtain ⟨h1, h2⟩ := List.append_inj' h rfl
    rw [List.cons.injEq] at h2
    exact ⟨post', by rw [List.concat_eq_append, h2.1], h1⟩

private theorem shutAfterEof_snoc (h : ShutAfterEof d t) (hcall : call ≠ .shutdown (other d))
    (hwrite : .shutdown (other d) ∈ t → ∀ bytes w, call ≠ .write (other d) bytes w) :
    ShutAfterEof d (t ++ [call]) := by
  intro pre post heq
  rcases snoc_split heq with ⟨-, -, hx⟩ | ⟨post', rfl, ht⟩
  · exact absurd hx.symm hcall
  · obtain ⟨heof, hbytes, hpost⟩ := h pre post' ht
    refine ⟨heof, hbytes, ?_⟩
    intro x hx
    rcases List.mem_append.mp hx with hx | hx
    · exact hpost x hx
    · rw [List.mem_singleton] at hx
      subst hx
      refine ⟨hcall, hwrite ?_⟩
      rw [ht]
      exact List.mem_append_right _ List.mem_cons_self

private theorem shutAfterEof_shut (hnot : .shutdown (other d) ∉ t) (heof : SawEof d t)
    (hbytes : sent (other d) t = received d t) :
    ShutAfterEof d (t ++ [.shutdown (other d)]) := by
  intro pre post heq
  rcases snoc_split heq with ⟨rfl, rfl, -⟩ | ⟨post', rfl, ht⟩
  · exact ⟨heof, hbytes, by simp⟩
  · exact absurd (ht ▸ List.mem_append_right _ List.mem_cons_self) hnot

end Trace

section Flow

/-- A call that moves no byte of the direction from `d`. -/
structure Idle (d : Side) (call : Call) : Prop where
  received_eq : call.received d = []
  sent_eq : call.sent (other d) = []
  not_eof : ∀ n, call ≠ .read d n .eof
  not_shut : call ≠ .shutdown (other d)

/-- A frame: an idle call, and a connection that differs elsewhere only. -/
theorem Flowing.frame (h : Flowing t c d) (hidle : Idle d call)
    (hwrite : writeShutdown c (other d) = true → ∀ bytes w, call ≠ .write (other d) bytes w)
    (hbuf : inbound c' d = inbound c d) (heof : eof c' d = eof c d)
    (hshut : writeShutdown c' (other d) = writeShutdown c (other d)) :
    Flowing (t ++ [call]) c' d where
  bytes_eq := by
    rw [hbuf, sent_append, received_append, sent_cons, received_cons, hidle.sent_eq,
      hidle.received_eq, sent_nil, received_nil, List.append_nil, List.append_nil]
    simpa using h.bytes_eq
  tidy := by
    rw [hbuf]
    exact h.tidy
  eof_iff := by
    rw [heof, h.eof_iff, sawEof_snoc]
    constructor
    · exact Or.inl
    · rintro (h | ⟨n, hn⟩)
      · exact h
      · exact absurd hn (hidle.not_eof n)
  shut_iff := by
    rw [hshut, h.shut_iff, List.mem_append, List.mem_singleton]
    constructor
    · exact Or.inl
    · rintro (h | hn)
      · exact h
      · exact absurd hn.symm hidle.not_shut
  shut_dry := by
    rw [hshut, heof, hbuf]
    exact h.shut_dry
  shut_after := shutAfterEof_snoc h.shut_after hidle.not_shut fun hmem =>
    hwrite (h.shut_iff.mpr hmem)

theorem Flowing.read_data (h : Flowing t c d) {l : List UInt8}
    (hl : l.length ≤ bufferWritePtr (inbound c d)) (hne : l ≠ []) (heof : eof c d = false)
    {n : ℕ} {r : ReadResult} (hr : r ≠ .eof) (hcall : (Call.read d n r).received d = l) :
    Flowing (t ++ [.read d n r]) (setInbound c d (bufferPut (inbound c d) l hl)) d where
  bytes_eq := by
    rw [inbound_setInbound, bufferReadPtr_put, sent_append, received_append, received_cons, hcall,
      received_nil, List.append_nil, ← h.bytes_eq]
    simp [Call.sent]
  tidy := by
    rw [inbound_setInbound]
    exact h.tidy.put l hl hne
  eof_iff := by
    rw [eof_setInbound, h.eof_iff, sawEof_snoc]
    constructor
    · exact Or.inl
    · rintro (h | ⟨m, hm⟩)
      · exact h
      · injection hm with _ _ hm
        exact absurd hm hr
  shut_iff := by
    rw [writeShutdown_setInbound, h.shut_iff]
    simp
  shut_dry := by
    rw [writeShutdown_setInbound]
    intro hshut
    exact absurd (h.shut_dry hshut).1 (by simp [heof])
  shut_after := shutAfterEof_snoc h.shut_after (by simp) (by simp)

theorem Flowing.read_eof (h : Flowing t c d) (n : ℕ) :
    Flowing (t ++ [.read d n .eof]) (setEof c d) d where
  bytes_eq := by
    rw [inbound_setEof, sent_append, received_append]
    simpa [Call.sent, Call.received] using h.bytes_eq
  tidy := by
    rw [inbound_setEof]
    exact h.tidy
  eof_iff := by
    rw [eof_setEof, sawEof_snoc]
    simp
  shut_iff := by
    rw [writeShutdown_setEof, h.shut_iff]
    simp
  shut_dry := by
    rw [writeShutdown_setEof, inbound_setEof, eof_setEof]
    exact fun hshut => ⟨rfl, (h.shut_dry hshut).2⟩
  shut_after := shutAfterEof_snoc h.shut_after (by simp) (by simp)

/-- A write of the first `n` bytes of a nonempty buffer. -/
theorem Flowing.write (h : Flowing t c d) (hne : bufferReadPtr (inbound c d) ≠ []) {n : ℕ}
    (hn : ((n : ℕ) : ℤ).toNat ≤ (bufferReadPtr (inbound c d)).length) {w : WriteResult}
    (hcall : (Call.write (other d) (bufferReadPtr (inbound c d)) w).sent (other d) =
      (bufferReadPtr (inbound c d)).take n) :
    Flowing (t ++ [.write (other d) (bufferReadPtr (inbound c d)) w])
      (setInbound c d (bufferReadAdv (inbound c d) n hn)) d where
  bytes_eq := by
    rw [inbound_setInbound, bufferReadPtr_readAdv, sent_append, received_append, sent_cons, hcall,
      sent_nil, List.append_nil, List.append_assoc, List.take_append_drop, h.bytes_eq]
    simp [Call.received]
  tidy := by
    rw [inbound_setInbound]
    refine ⟨(bufferLimit_readAdv _ _ hn).trans h.tidy.limit_eq, fun hnil => ?_⟩
    rw [bufferReadPtr_readAdv, List.drop_eq_nil_iff] at hnil
    rw [Int.toNat_natCast] at hn
    rw [bufferWritePtr_readAdv, if_pos (by omega)]
    exact h.tidy.limit_eq
  eof_iff := by
    rw [eof_setInbound, h.eof_iff, sawEof_snoc]
    simp
  shut_iff := by
    rw [writeShutdown_setInbound, h.shut_iff]
    simp
  shut_dry := by
    rw [writeShutdown_setInbound]
    exact fun hshut => absurd (h.shut_dry hshut).2 hne
  shut_after := shutAfterEof_snoc h.shut_after (by simp) fun hmem =>
    absurd (h.shut_dry (h.shut_iff.mpr hmem)).2 hne

theorem Flowing.shut (h : Flowing t c d) (hnot : writeShutdown c (other d) = false)
    (heof : eof c d = true) (hnil : bufferReadPtr (inbound c d) = [])
    (hbuf : inbound c' d = inbound c d) (heof' : eof c' d = eof c d)
    (hshut : writeShutdown c' (other d) = true) :
    Flowing (t ++ [.shutdown (other d)]) c' d where
  bytes_eq := by
    rw [hbuf, sent_append, received_append]
    simpa [Call.sent, Call.received] using h.bytes_eq
  tidy := by
    rw [hbuf]
    exact h.tidy
  eof_iff := by
    rw [heof', h.eof_iff, sawEof_snoc]
    simp
  shut_iff := by simp [hshut]
  shut_dry := by
    rw [heof', hbuf]
    exact fun _ => ⟨heof, hnil⟩
  shut_after := by
    have hbytes := h.bytes_eq
    rw [hnil, List.append_nil] at hbytes
    apply shutAfterEof_shut _ (h.eof_iff.mp heof) hbytes
    rw [← h.shut_iff, hnot]
    simp

/-- Flow is a matter of the buffers and flags only. -/
theorem Flowing.of_eq (h : Flowing t c d) (hbuf : inbound c' d = inbound c d)
    (heof : eof c' d = eof c d)
    (hshut : writeShutdown c' (other d) = writeShutdown c (other d)) : Flowing t c' d where
  bytes_eq := by
    rw [hbuf]
    exact h.bytes_eq
  tidy := by
    rw [hbuf]
    exact h.tidy
  eof_iff := by
    rw [heof]
    exact h.eof_iff
  shut_iff := by
    rw [hshut]
    exact h.shut_iff
  shut_dry := by
    rw [hshut, heof, hbuf]
    exact h.shut_dry
  shut_after := h.shut_after

end Flow

end SocksProxy.RelayFlow
