import SocksProxy.RelayFidelity

/-!
The relay never waits for nothing. A direction that is not over reads from its
source or writes to its destination: a buffer without room holds bytes, since
the last byte read from it frees the whole array.
-/
namespace SocksProxy.RelayProgress

open ByteBuffer UserTable ConnState Connection Stages RelayFlow RelayHandlers Lifetime Runs

variable {c : Conn} {t : List Kernel.Call}

/-- The selector is asked for exactly what the direction from `d` to the other
side can do, and while that direction is not over it can do something. -/
structure Moving (c : Conn) (d : Kernel.Side) : Prop where
  write_iff : armed (itemOf c (other d)) FdInterest.write ↔ bufferReadPtr (inbound c d) ≠ []
  read_iff : armed (itemOf c d) FdInterest.read ↔
    eof c d = false ∧ 0 < bufferWritePtr (inbound c d)
  progress : eof c d = false ∨ bufferReadPtr (inbound c d) ≠ [] →
    (armed (itemOf c d) FdInterest.read ∧ 0 < bufferWritePtr (inbound c d)) ∨
      (armed (itemOf c (other d)) FdInterest.write ∧ bufferReadPtr (inbound c d) ≠ [])

theorem armed_wanted (h : Relaying t c) (d : Kernel.Side) (op : FdInterest → Bool) :
    armed (itemOf c d) op ↔ op (wanted c d) = true := by
  unfold armed
  rw [h.item_eq d]
  constructor
  · rintro ⟨i, hi, hop⟩
    rw [Option.some.injEq] at hi
    rw [hi]
    exact hop
  · intro hop
    exact ⟨_, rfl, hop⟩

/-- A full buffer is not an empty one. -/
theorem room_of_empty {b : Buffer} (h : Tidy b) (hempty : bufferReadPtr b = []) :
    0 < bufferWritePtr b := by
  rw [h.whole hempty]
  decide

theorem relaying_moving (h : Relaying t c) (d : Kernel.Side) : Moving c d := by
  have hwrite : armed (itemOf c (other d)) FdInterest.write ↔
      bufferReadPtr (inbound c d) ≠ [] := by
    rw [armed_wanted h, wanted, other_other, bufferCanRead_iff]
  have hread : armed (itemOf c d) FdInterest.read ↔
      eof c d = false ∧ 0 < bufferWritePtr (inbound c d) := by
    rw [armed_wanted h, wanted, Bool.and_eq_true, Bool.not_eq_true', bufferCanWrite_iff]
  refine ⟨hwrite, hread, ?_⟩
  intro hgoes
  by_cases hempty : bufferReadPtr (inbound c d) = []
  · -- nothing to write, so there is room, and the source has not ended
    have hroom := room_of_empty (h.flowing d).tidy hempty
    have heof : eof c d = false := by
      rcases hgoes with heof | hne
      · exact heof
      · exact absurd hempty hne
    exact Or.inl ⟨hread.mpr ⟨heof, hroom⟩, hroom⟩
  · exact Or.inr ⟨hwrite.mpr hempty, hempty⟩

/-- In every state of every run from the start of the relay on, until the
connection is closed. -/
theorem relay_never_stalls {fd : ℕ} {users : Table} {es : List Event}
    (h : Run Step (socks5Init fd users) es c) (hrelay : c.relayStarted = true)
    (hopen : c.closing = false) : ∀ d, Moving c d := by
  obtain ⟨t, -, hrel⟩ := relaying_of_open (phase_run h) hopen hrelay
  exact relaying_moving hrel

theorem relay_never_stalls_polite : ∃ c, Run Step accepted politely c ∧ ∀ d, Moving c d := by
  have hrun : (replay accepted politely).map (fun c => (c.relayStarted, c.closing)) =
      some (true, false) := by
    decide +kernel
  obtain ⟨c, hc, hvals⟩ := Option.map_eq_some_iff.mp hrun
  rw [Prod.mk.injEq] at hvals
  obtain ⟨hrelay, hopen⟩ := hvals
  exact ⟨c, replay_run hc, relay_never_stalls (replay_run hc) hrelay hopen⟩

end SocksProxy.RelayProgress
