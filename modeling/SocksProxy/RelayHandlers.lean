import SocksProxy.RelayFlow

/-!
The relay handlers keep both directions flowing, arm exactly what can make
progress, and close the connection on a fatal error or when both directions have
ended and are drained.
-/
namespace SocksProxy.RelayHandlers

open ByteBuffer ByteScan Hello Auth Request UserTable Kernel Stm ConnState Connect Connection
open Stages Dialing RelayFlow

variable {t u : List Call} {c c' : Conn} {d : Side} {call : Call} {sys : Sys}

/-- The calls of a relay handler: none of them reads or writes nothing. -/
def RelayCall : Call → Prop
  | .read _ n _ => n ≠ 0
  | .write _ bytes _ => bytes ≠ []
  | .shutdown _ => True
  | _ => False

/-- Everything that the relay handlers leave alone. -/
def relayCore (c : Conn) : Conn :=
  { c with
    readBuffer := bufferInit 0, writeBuffer := bufferInit 0, clientEof := false
    originEof := false, clientWriteShutdown := false, originWriteShutdown := false, trace := [] }

theorem field_of_relayCore {α : Type*} (f : Conn → α) (hf : ∀ c, f (relayCore c) = f c)
    (h : relayCore c' = relayCore c) : f c' = f c := by rw [← hf c', h, hf c]

/-- Part of a handler took `c` to `c'` with the calls `u`. -/
structure Flows (t : List Call) (c c' : Conn) (u : List Call) : Prop where
  trace_eq : c'.trace = c.trace ++ u
  core_eq : relayCore c' = relayCore c
  calls : ∀ call ∈ u, RelayCall call
  flowing : ∀ d, Flowing (t ++ u) c' d

theorem Flows.refl (h : ∀ d, Flowing t c d) : Flows t c c [] where
  trace_eq := by simp
  core_eq := rfl
  calls := by simp
  flowing := by simpa using h

theorem Flows.trans {c'' : Conn} {v : List Call} (h : Flows t c c' u)
    (h' : Flows (t ++ u) c' c'' v) : Flows t c c'' (u ++ v) where
  trace_eq := by rw [h'.trace_eq, h.trace_eq, List.append_assoc]
  core_eq := h'.core_eq.trans h.core_eq
  calls := by
    intro call hmem
    rcases List.mem_append.mp hmem with hmem | hmem
    · exact h.calls call hmem
    · exact h'.calls call hmem
  flowing := by simpa only [List.append_assoc] using h'.flowing

theorem relayCore_setInbound (c : Conn) (d : Side) (b : Buffer) :
    relayCore (setInbound c d b) = relayCore c := by cases d <;> rfl

theorem relayCore_setEof (c : Conn) (d : Side) : relayCore (setEof c d) = relayCore c := by
  cases d <;> rfl

theorem fdOf_of_core (h : relayCore c' = relayCore c) (d : Side) : fdOf c' d = fdOf c d := by
  cases d
  · exact field_of_relayCore (fun x => x.clientFd) (fun _ => rfl) h
  · exact field_of_relayCore (fun x => x.originFd) (fun _ => rfl) h

/-- A step on the direction from `d` is a step on both when its call is idle for
the other one. -/
private theorem flowing_both {c₁ : Conn} (hd : Flowing (t ++ [call]) c₁ d)
    (h : Flowing t c (other d)) (hidle : Idle (other d) call)
    (hwrite : ∀ bytes w, call ≠ .write d bytes w)
    (hbuf : inbound c₁ (other d) = inbound c (other d)) (heof : eof c₁ (other d) = eof c (other d))
    (hshut : writeShutdown c₁ d = writeShutdown c d) : ∀ e, Flowing (t ++ [call]) c₁ e := by
  intro e
  by_cases he : e = d
  · rw [he]
    exact hd
  · rw [eq_other_of_ne he]
    exact h.frame hidle (fun _ bytes w => by rw [other_other]; exact hwrite bytes w) hbuf heof
      (by rw [other_other]; exact hshut)

private theorem idle_write (d : Side) (bytes : List UInt8) (w : WriteResult) :
    Idle (other d) (.write (other d) bytes w) where
  received_eq := rfl
  sent_eq := by
    rw [other_other]
    cases w <;> simp [Call.sent, other_ne]
  not_eof := by simp
  not_shut := by simp

private theorem idle_read (d : Side) (n : ℕ) (r : ReadResult) :
    Idle (other d) (.read d n r) where
  received_eq := by cases r <;> simp [Call.received, (other_ne d).symm]
  sent_eq := rfl
  not_eof := by
    intro m h
    injection h with h
    exact other_ne d h.symm
  not_shut := by simp

private theorem write_ne_self (d : Side) (bytes bytes' : List UInt8) (w w' : WriteResult) :
    Call.write (other d) bytes w ≠ .write d bytes' w' := by
  intro h
  injection h with h
  exact other_ne d h

/-- A write that moved nothing. -/
private theorem flows_write_nothing (h : ∀ e, Flowing t c e)
    (hne : bufferReadPtr (inbound c d) ≠ []) {w : WriteResult}
    (hw : (Call.write (other d) (bufferReadPtr (inbound c d)) w).sent (other d) = []) :
    Flows t c (c.log (.write (other d) (bufferReadPtr (inbound c d)) w))
      [.write (other d) (bufferReadPtr (inbound c d)) w] where
  trace_eq := rfl
  core_eq := rfl
  calls := by simp [RelayCall, hne]
  flowing := by
    have hd : Flowing (t ++ [.write (other d) (bufferReadPtr (inbound c d)) w])
        (c.log (.write (other d) (bufferReadPtr (inbound c d)) w)) d := by
      apply (h d).frame ⟨rfl, hw, by simp, by simp⟩ _ (inbound_log _ _ _) (eof_log _ _ _)
        (writeShutdown_log _ _ _)
      exact fun hshut => absurd ((h d).shut_dry hshut).2 hne
    exact flowing_both hd (h (other d)) (idle_write d _ w) (fun bytes w' => write_ne_self d _ _ _ _)
      (inbound_log _ _ _) (eof_log _ _ _) (writeShutdown_log _ _ _)

/-- A write that moved `n` bytes. -/
private theorem flows_write_some (h : ∀ e, Flowing t c e)
    (hne : bufferReadPtr (inbound c d) ≠ []) {n : ℕ}
    (hn : ((n : ℕ) : ℤ).toNat ≤ (bufferReadPtr (inbound c d)).length) {w : WriteResult}
    (hw : (Call.write (other d) (bufferReadPtr (inbound c d)) w).sent (other d) =
      (bufferReadPtr (inbound c d)).take n) :
    Flows t c ((setInbound c d (bufferReadAdv (inbound c d) n hn)).log
        (.write (other d) (bufferReadPtr (inbound c d)) w))
      [.write (other d) (bufferReadPtr (inbound c d)) w] where
  trace_eq := by simp [Conn.log]
  core_eq := relayCore_setInbound c d _
  calls := by simp [RelayCall, hne]
  flowing := by
    have hd : Flowing (t ++ [.write (other d) (bufferReadPtr (inbound c d)) w])
        ((setInbound c d (bufferReadAdv (inbound c d) n hn)).log
          (.write (other d) (bufferReadPtr (inbound c d)) w)) d :=
      ((h d).write hne hn hw).of_eq (inbound_log _ _ _) (eof_log _ _ _) (writeShutdown_log _ _ _)
    apply flowing_both hd (h (other d)) (idle_write d _ w) (fun bytes w' => write_ne_self d _ _ _ _)
      <;> simp

/-- relay_flush keeps both directions; it fails only on a fatal write. -/
theorem relayFlush_spec (sys : Sys) (d : Side) (h : ∀ e, Flowing t c e)
    (hfd : (fdOf c (other d)).isSome) :
    ∃ u, Flows t c (relayFlush sys d c).2 u ∧
      (∀ e, eof (relayFlush sys d c).2 e = eof c e) ∧
      ((relayFlush sys d c).1 = false → ∃ side bytes, .write side bytes .fail ∈ u) := by
  have hisNone : (fdOf c (other d)).isNone = false := by simpa using hfd
  by_cases hcan : bufferCanRead (inbound c d) = false
  · refine ⟨[], ?_, ?_, ?_⟩ <;> simp [relayFlush, hcan, Flows.refl h]
  have hcan : bufferCanRead (inbound c d) = true := by simpa using hcan
  have hne := (bufferCanRead_iff _).mp hcan
  cases hw : sys.write with
  | again =>
    have heq : relayFlush sys d c =
        (true, c.log (.write (other d) (bufferReadPtr (inbound c d)) .again)) := by
      simp [relayFlush, hisNone, hcan, hw, sysWrite]
    rw [heq]
    exact ⟨_, flows_write_nothing h hne rfl, fun e => eof_log _ _ _, by simp⟩
  | fail =>
    have heq : relayFlush sys d c =
        (false, c.log (.write (other d) (bufferReadPtr (inbound c d)) .fail)) := by
      simp [relayFlush, hisNone, hcan, hw, sysWrite]
    rw [heq]
    exact ⟨_, flows_write_nothing h hne rfl, fun e => eof_log _ _ _,
      fun _ => ⟨_, _, List.mem_cons_self⟩⟩
  | accept n =>
    have hsent : (Call.write (other d) (bufferReadPtr (inbound c d)) (.accept n)).sent (other d) =
        (bufferReadPtr (inbound c d)).take n := by simp [Call.sent]
    by_cases hn : n = 0
    · have heq : relayFlush sys d c =
          (true, c.log (.write (other d) (bufferReadPtr (inbound c d)) (.accept n))) := by
        simp [relayFlush, hisNone, hcan, hw, sysWrite, hn]
      rw [heq]
      refine ⟨_, flows_write_nothing h hne ?_, fun e => eof_log _ _ _, by simp⟩
      rw [hsent, hn, List.take_zero]
    · have hpos : 0 < (bufferReadPtr (inbound c d)).length := List.length_pos_iff.mpr hne
      have hmin : 0 < min n (bufferReadPtr (inbound c d)).length := by omega
      have hle : ((min n (bufferReadPtr (inbound c d)).length : ℕ) : ℤ).toNat ≤
          (bufferReadPtr (inbound c d)).length := by
        rw [Int.toNat_natCast]
        exact Nat.min_le_right _ _
      have heq : relayFlush sys d c = (true, (setInbound c d (bufferReadAdv (inbound c d) _ hle)).log
          (.write (other d) (bufferReadPtr (inbound c d)) (.accept n))) := by
        rw [← setInbound_log]
        simp only [relayFlush, hisNone, hcan, hw, sysWrite, hmin]
        simp
      rw [heq]
      refine ⟨_, flows_write_some h hne hle ?_, fun e => ?_, by simp⟩
      · rw [hsent]
        rcases Nat.le_total n (bufferReadPtr (inbound c d)).length with hle' | hle'
        · rw [Nat.min_eq_left hle']
        · rw [Nat.min_eq_right hle', List.take_of_length_le hle', List.take_length]
      · rw [eof_log, eof_setInbound]

/-- The half of relay_should_close that looks at the direction from `d`. -/
def shutIf (c : Conn) (d : Side) : Conn :=
  if eof c d && !bufferCanRead (inbound c d) then relayShutdownWriteSide c (other d) else c

private theorem idle_shutdown (d : Side) : Idle (other d) (.shutdown (other d)) where
  received_eq := rfl
  sent_eq := rfl
  not_eof := by simp
  not_shut := by
    rw [other_other]
    intro h
    injection h with h
    exact other_ne d h

private theorem shutIf_same (c : Conn) (d e : Side) :
    eof (shutIf c d) e = eof c e ∧ inbound (shutIf c d) e = inbound c e := by
  unfold shutIf
  split
  · unfold relayShutdownWriteSide
    split
    · exact ⟨rfl, rfl⟩
    · cases d <;> cases e <;> exact ⟨rfl, rfl⟩
  · exact ⟨rfl, rfl⟩

theorem shutIf_spec (d : Side) (h : ∀ e, Flowing t c e) (hfd : (fdOf c (other d)).isSome) :
    ∃ u, Flows t c (shutIf c d) u := by
  have hisNone : (fdOf c (other d)).isNone = false := by simpa using hfd
  by_cases hcond : (eof c d && !bufferCanRead (inbound c d)) = true
  swap
  · have heq : shutIf c d = c := by simp [shutIf, hcond]
    rw [heq]
    exact ⟨[], Flows.refl h⟩
  by_cases hdone : writeShutdown c (other d) = true
  · have heq : shutIf c d = c := by simp [shutIf, hcond, relayShutdownWriteSide, hdone]
    rw [heq]
    exact ⟨[], Flows.refl h⟩
  have hnot : writeShutdown c (other d) = false := by simpa using hdone
  rw [Bool.and_eq_true, Bool.not_eq_true', bufferCanRead_eq_false_iff] at hcond
  obtain ⟨heof, hnil⟩ := hcond
  have heq : shutIf c d =
      if other d = .client then { c with clientWriteShutdown := true }.log (.shutdown .client)
      else { c with originWriteShutdown := true }.log (.shutdown .origin) := by
    simp only [shutIf, heof, (bufferCanRead_eq_false_iff _).mpr hnil, relayShutdownWriteSide, hnot,
      hisNone]
    cases d <;> rfl
  have hflag : writeShutdown (shutIf c d) (other d) = true := by
    rw [heq]
    cases d <;> rfl
  have hflag' : writeShutdown (shutIf c d) d = writeShutdown c d := by
    rw [heq]
    cases d <;> rfl
  have hsame := shutIf_same c d
  refine ⟨[.shutdown (other d)], ?_⟩
  exact
    { trace_eq := by
        rw [heq]
        cases d <;> rfl
      core_eq := by
        rw [heq]
        cases d <;> rfl
      calls := by simp [RelayCall]
      flowing := by
        have hd := (h d).shut hnot heof hnil (hsame d).2 (hsame d).1 hflag
        exact flowing_both hd (h (other d)) (idle_shutdown d) (by simp) (hsame _).2 (hsame _).1
          hflag' }

/-- Both directions have ended and are drained. -/
def Finished (c : Conn) : Prop := ∀ d, eof c d = true ∧ bufferReadPtr (inbound c d) = []

private theorem relayShouldClose_eq (c : Conn) :
    relayShouldClose c = (c.clientEof && c.originEof && !bufferCanRead c.readBuffer &&
      !bufferCanRead c.writeBuffer, shutIf (shutIf c .client) .origin) := by
  have hsecond : shutIf (shutIf c .client) .origin =
      if (shutIf c .client).originEof && !bufferCanRead c.writeBuffer then
        relayShutdownWriteSide (shutIf c .client) .client else shutIf c .client := by
    rw [shutIf, (shutIf_same c .client .origin).2]
    rfl
  have hclient : (shutIf (shutIf c .client) .origin).clientEof = c.clientEof :=
    (shutIf_same _ .origin .client).1.trans (shutIf_same c .client .client).1
  have horigin : (shutIf (shutIf c .client) .origin).originEof = c.originEof :=
    (shutIf_same _ .origin .origin).1.trans (shutIf_same c .client .origin).1
  rw [← hclient, ← horigin, hsecond]
  rfl

/-- relay_should_close: the shutdowns keep both directions, and the answer is
yes only when both are finished. -/
theorem relayShouldClose_spec (h : ∀ e, Flowing t c e) (hclient : c.clientFd.isSome)
    (horigin : c.originFd.isSome) :
    ∃ u, Flows t c (relayShouldClose c).2 u ∧
      (∀ e, eof (relayShouldClose c).2 e = eof c e) ∧
      ((relayShouldClose c).1 = true → Finished (relayShouldClose c).2) := by
  obtain ⟨u, hu⟩ := shutIf_spec .client h horigin
  obtain ⟨v, hv⟩ := shutIf_spec .origin hu.flowing (by
    rw [fdOf_of_core hu.core_eq]
    exact hclient)
  have hsame := shutIf_same c .client
  have hsame' := shutIf_same (shutIf c .client) .origin
  rw [relayShouldClose_eq]
  refine ⟨u ++ v, hu.trans hv, fun e => (hsame' e).1.trans (hsame e).1, ?_⟩
  intro hclose d
  simp only [Bool.and_eq_true, Bool.not_eq_true', bufferCanRead_eq_false_iff] at hclose
  obtain ⟨⟨⟨hce, hoe⟩, hrb⟩, hwb⟩ := hclose
  rw [(hsame' d).1, (hsame d).1, (hsame' d).2, (hsame d).2]
  cases d
  · exact ⟨hce, hrb⟩
  · exact ⟨hoe, hwb⟩

/-- The relay is running: the sockets are open and registered. -/
structure Running (c : Conn) : Prop where
  closing_eq : c.closing = false
  cancelled_eq : c.cancelled = false
  relay_eq : c.relayStarted = true
  current_eq : c.current = some .relay
  clientFd_isSome : c.clientFd.isSome
  originFd_isSome : c.originFd.isSome
  clientRegistered_eq : c.clientRegistered = true
  originRegistered_eq : c.originRegistered = true
  clientItem_isSome : c.clientItem.isSome
  originItem_isSome : c.originItem.isSome
  job_eq : c.dnsJob = .idle

/-- What relay_update_interests arms on a side: reading while there is room for
it, writing while there are bytes to write. -/
def wanted (c : Conn) (d : Side) : FdInterest :=
  { read := !eof c d && bufferCanWrite (inbound c d)
    write := bufferCanRead (inbound c (other d)) }

def itemOf (c : Conn) : Side → Option FdInterest
  | .client => c.clientItem
  | .origin => c.originItem

/-- A connection between two events of its relay. -/
structure Relaying (t : List Call) (c : Conn) : Prop where
  running : Running c
  item_eq : ∀ d, itemOf c d = some (wanted c d)
  flowing : ∀ d, Flowing t c d

theorem Running.frame (h : Running c) (hcore : relayCore c' = relayCore c) : Running c' where
  closing_eq := (field_of_relayCore (fun x => x.closing) (fun _ => rfl) hcore).trans h.closing_eq
  cancelled_eq :=
    (field_of_relayCore (fun x => x.cancelled) (fun _ => rfl) hcore).trans h.cancelled_eq
  relay_eq := (field_of_relayCore (fun x => x.relayStarted) (fun _ => rfl) hcore).trans h.relay_eq
  current_eq := (field_of_relayCore (fun x => x.current) (fun _ => rfl) hcore).trans h.current_eq
  clientFd_isSome := by
    rw [field_of_relayCore (fun x => x.clientFd) (fun _ => rfl) hcore]
    exact h.clientFd_isSome
  originFd_isSome := by
    rw [field_of_relayCore (fun x => x.originFd) (fun _ => rfl) hcore]
    exact h.originFd_isSome
  clientRegistered_eq :=
    (field_of_relayCore (fun x => x.clientRegistered) (fun _ => rfl) hcore).trans
      h.clientRegistered_eq
  originRegistered_eq :=
    (field_of_relayCore (fun x => x.originRegistered) (fun _ => rfl) hcore).trans
      h.originRegistered_eq
  clientItem_isSome := by
    rw [field_of_relayCore (fun x => x.clientItem) (fun _ => rfl) hcore]
    exact h.clientItem_isSome
  originItem_isSome := by
    rw [field_of_relayCore (fun x => x.originItem) (fun _ => rfl) hcore]
    exact h.originItem_isSome
  job_eq := (field_of_relayCore (fun x => x.dnsJob) (fun _ => rfl) hcore).trans h.job_eq

theorem Running.fd_isSome (h : Running c) (d : Side) : (fdOf c d).isSome := by
  cases d
  · exact h.clientFd_isSome
  · exact h.originFd_isSome

theorem relayUpdateInterests_spec (h : Running c) (hflow : ∀ d, Flowing t c d) :
    Relaying t (relayUpdateInterests c) := by
  obtain ⟨i, hi⟩ := Option.isSome_iff_exists.mp h.clientItem_isSome
  obtain ⟨j, hj⟩ := Option.isSome_iff_exists.mp h.originItem_isSome
  have heq : relayUpdateInterests c =
      { c with clientItem := some (wanted c .client), originItem := some (wanted c .origin) } := by
    simp only [relayUpdateInterests, selectorSetInterest, hi, hj]
    rfl
  rw [heq]
  exact
    { running := { h with clientItem_isSome := rfl, originItem_isSome := rfl }
      item_eq := fun d => by cases d <;> rfl
      flowing := fun d => (hflow d).of_eq (by cases d <;> rfl) (by cases d <;> rfl)
        (by cases d <;> rfl) }

/-- A fatal read or write is among the calls. -/
def Failed (u : List Call) : Prop :=
  (∃ side n, .read side n .fail ∈ u) ∨ ∃ side bytes, .write side bytes .fail ∈ u

/-- The outcome of a relay handler called on `c`: it goes on, or it closes on an
error or when everything is over. -/
def RelayOutcome (t : List Call) (c : Conn) (r : Socks5Action × Conn) : Prop :=
  ∃ u, r.2.trace = c.trace ++ u ∧ (∀ call ∈ u, RelayCall call) ∧
    (∀ d, Flowing (t ++ u) r.2 d) ∧ Running r.2 ∧
    ((r.1 = .none ∧ Relaying (t ++ u) r.2) ∨ (r.1 = .close ∧ (Failed u ∨ Finished r.2)))

theorem relayFinish_spec {c₀ : Conn} (h : Running c₀) (hflow : Flows t c₀ c u) :
    RelayOutcome t c₀ (relayFinish c) := by
  have hrun := h.frame hflow.core_eq
  obtain ⟨v, hv, -, hclose⟩ :=
    relayShouldClose_spec hflow.flowing hrun.clientFd_isSome hrun.originFd_isSome
  have hall := hflow.trans hv
  have hrun' := h.frame hall.core_eq
  unfold relayFinish
  generalize relayShouldClose c = r at hv hclose hall hrun'
  obtain ⟨close, c'⟩ := r
  cases close with
  | true =>
    exact ⟨u ++ v, hall.trace_eq, hall.calls, hall.flowing, hrun', Or.inr ⟨rfl, Or.inr (hclose rfl)⟩⟩
  | false =>
    have hrel := relayUpdateInterests_spec hrun' hall.flowing
    exact ⟨u ++ v, hall.trace_eq, hall.calls, hrel.flowing, hrel.running, Or.inl ⟨rfl, hrel⟩⟩

/-- The flush that ends a write event, or follows a read. -/
private theorem relayFlush_finish (sys : Sys) {c₀ : Conn} (d : Side) (h : Running c₀)
    (hflow : Flows t c₀ c u) :
    RelayOutcome t c₀ (match relayFlush sys d c with
      | (false, c) => (.close, c)
      | (true, c) => relayFinish c) := by
  have hrun := h.frame hflow.core_eq
  obtain ⟨v, hv, -, hfail⟩ := relayFlush_spec sys d hflow.flowing (hrun.fd_isSome _)
  have hall := hflow.trans hv
  have hrun' := h.frame hall.core_eq
  generalize relayFlush sys d c = r at hv hfail hall hrun'
  obtain ⟨ok, c'⟩ := r
  cases ok with
  | true => exact relayFinish_spec h hall
  | false =>
    refine ⟨u ++ v, hall.trace_eq, hall.calls, hall.flowing, hrun', Or.inr ⟨rfl, Or.inl ?_⟩⟩
    obtain ⟨side, bytes, hmem⟩ := hfail rfl
    exact Or.inr ⟨side, bytes, List.mem_append_right u hmem⟩

theorem relayWrite_spec (sys : Sys) (d : Side) (h : Relaying t c) :
    RelayOutcome t c (relayWrite sys d c) :=
  relayFlush_finish sys (other d) h.running (Flows.refl h.flowing)

/-- A read that brought nothing. -/
private theorem flows_read_nothing (h : ∀ e, Flowing t c e) {n : ℕ} (hn : n ≠ 0)
    {r : ReadResult} (hr : r ≠ .eof) (hnil : (Call.read d n r).received d = []) :
    Flows t c (c.log (.read d n r)) [.read d n r] where
  trace_eq := rfl
  core_eq := rfl
  calls := by simp [RelayCall, hn]
  flowing := by
    have hd : Flowing (t ++ [.read d n r]) (c.log (.read d n r)) d := by
      apply (h d).frame ⟨hnil, rfl, _, by simp⟩ (by simp) (inbound_log _ _ _) (eof_log _ _ _)
        (writeShutdown_log _ _ _)
      intro m heq
      injection heq with _ _ heq
      exact hr heq
    exact flowing_both hd (h (other d)) (idle_read d n r) (by simp) (inbound_log _ _ _)
      (eof_log _ _ _) (writeShutdown_log _ _ _)

/-- relay reads are made with room in the buffer, so 0 means end of file. -/
theorem relayRead_spec (sys : Sys) (d : Side) (h : Relaying t c) (heof : eof c d = false)
    (hroom : bufferWritePtr (inbound c d) ≠ 0) : RelayOutcome t c (relayRead sys d c) := by
  cases hr : sys.read with
  | again =>
    have heq : relayRead sys d c =
        relayFinish (c.log (.read d (bufferWritePtr (inbound c d)) .again)) := by
      simp [relayRead, hr, sysRead]
    rw [heq]
    exact relayFinish_spec h.running (flows_read_nothing h.flowing hroom (by simp) rfl)
  | fail =>
    have heq : relayRead sys d c =
        (.close, c.log (.read d (bufferWritePtr (inbound c d)) .fail)) := by
      simp [relayRead, hr, sysRead]
    have hflow := flows_read_nothing (d := d) h.flowing hroom (r := .fail) (by simp) rfl
    rw [heq]
    exact ⟨_, hflow.trace_eq, hflow.calls, hflow.flowing, h.running.frame hflow.core_eq,
      Or.inr ⟨rfl, Or.inl (Or.inl ⟨_, _, List.mem_cons_self⟩)⟩⟩
  | eof =>
    have heq : relayRead sys d c =
        relayFinish ((setEof c d).log (.read d (bufferWritePtr (inbound c d)) .eof)) := by
      cases d <;> simp [relayRead, hr, sysRead, setEof, Conn.log]
    have hflow : Flows t c ((setEof c d).log (.read d (bufferWritePtr (inbound c d)) .eof))
        [.read d (bufferWritePtr (inbound c d)) .eof] :=
      { trace_eq := by simp [Conn.log]
        core_eq := relayCore_setEof c d
        calls := by simp [RelayCall, hroom]
        flowing := by
          have hd : Flowing (t ++ [.read d (bufferWritePtr (inbound c d)) .eof])
              ((setEof c d).log (.read d (bufferWritePtr (inbound c d)) .eof)) d :=
            ((h.flowing d).read_eof _).of_eq (inbound_log _ _ _) (eof_log _ _ _)
              (writeShutdown_log _ _ _)
          apply flowing_both hd (h.flowing (other d)) (idle_read d _ _) (by simp) <;> simp }
    rw [heq]
    exact relayFinish_spec h.running hflow
  | data b rest =>
    have hne : (b :: rest).take (bufferWritePtr (inbound c d)) ≠ [] := by simp [hroom]
    have hle := List.length_take_le (bufferWritePtr (inbound c d)) (b :: rest)
    have heq : relayRead sys d c = match relayFlush sys d ((setInbound c d (bufferPut (inbound c d)
          ((b :: rest).take (bufferWritePtr (inbound c d))) hle)).log
            (.read d (bufferWritePtr (inbound c d)) (.data b rest))) with
        | (false, c) => (.close, c)
        | (true, c) => relayFinish c := by
      rw [← setInbound_log]
      simp only [relayRead, hr, sysRead]
      exact if_pos hne
    have hflow : Flows t c ((setInbound c d (bufferPut (inbound c d)
          ((b :: rest).take (bufferWritePtr (inbound c d))) hle)).log
            (.read d (bufferWritePtr (inbound c d)) (.data b rest)))
        [.read d (bufferWritePtr (inbound c d)) (.data b rest)] :=
      { trace_eq := by simp [Conn.log]
        core_eq := relayCore_setInbound c d _
        calls := by simp [RelayCall, hroom]
        flowing := by
          have hd : Flowing (t ++ [.read d (bufferWritePtr (inbound c d)) (.data b rest)])
              ((setInbound c d (bufferPut (inbound c d) _ hle)).log
                (.read d (bufferWritePtr (inbound c d)) (.data b rest))) d :=
            ((h.flowing d).read_data hle hne heof (by simp) (by simp [Call.received])).of_eq
              (inbound_log _ _ _) (eof_log _ _ _) (writeShutdown_log _ _ _)
          apply flowing_both hd (h.flowing (other d)) (idle_read d _ _) (by simp) <;> simp }
    rw [heq]
    exact relayFlush_finish sys d h.running hflow

end SocksProxy.RelayHandlers
