import Mathlib.Data.List.Perm.Subperm
import SocksProxy.ServerEntries

/-!
The pool and the counters kept with it. The pool is the list of the connections
whose client is registered; its size and the metrics follow it.
-/
namespace SocksProxy.ServerPool

open Kernel ServerState ServerSteps ServerRefs ServerSockets ServerEntries
open MonServer (Metrics metricsConnectionOpened metricsConnectionClosed metricsAddBytes)

variable {heap : ℕ → Option Socks5} {fds : ℕ → Option Socket} {items : ℕ → Option Item}
variable {regs : Ledgers.Ledger Registration} {clearing pool : List ℕ} {poolSize : UInt64}
variable {metrics : Metrics} {added removed written a : ℕ} {o o' : Socks5}

structure PoolOk (heap : ℕ → Option Socks5) (pool : List ℕ) (poolSize : UInt64)
    (metrics : Metrics) (added removed written : ℕ) : Prop where
  nodup : pool.Nodup
  mem_iff : ∀ a, a ∈ pool ↔ ∃ o, heap a = some o ∧ o.clientRegistered = true
  size : poolSize = UInt64.ofNat pool.length
  current : metrics.currentConnections = UInt64.ofNat pool.length
  historic : metrics.historicConnections = UInt64.ofNat added
  added : added = pool.length + removed
  bytes : metrics.bytesTransferred = UInt64.ofNat written

/-- Every member has an entry of its own in the table. -/
theorem pool_length (h : PoolOk heap pool poolSize metrics added removed written)
    (hentries : EntriesOk heap fds items regs clearing) : pool.length ≤ ITEMS_MAX_SIZE := by
  let named : List ℕ := (List.range ITEMS_MAX_SIZE).filterMap fun fd => (items fd).bind Item.data
  have hsub : pool ⊆ named := by
    intro a ha
    obtain ⟨o, ho, hreg⟩ := (h.mem_iff a).mp ha
    obtain ⟨fd, it, -, hit, -, -, hdata⟩ := hentries.registered a o .client ho hreg
    refine List.mem_filterMap.mpr ⟨fd, List.mem_range.mpr (hentries.fd_lt fd it hit), ?_⟩
    rw [hit]
    exact hdata
  calc
    pool.length ≤ named.length := (h.nodup.subperm hsub).length_le
    _ ≤ (List.range ITEMS_MAX_SIZE).length := List.length_filterMap_le _ _
    _ = ITEMS_MAX_SIZE := List.length_range

namespace PoolOk

/-- Connections come, change or go that are not registered as clients, or stay so. -/
theorem heap_change {heap' : ℕ → Option Socks5}
    (h : PoolOk heap pool poolSize metrics added removed written)
    (hheap : ∀ a, (∃ o, heap' a = some o ∧ o.clientRegistered = true) ↔
      ∃ o, heap a = some o ∧ o.clientRegistered = true) :
    PoolOk heap' pool poolSize metrics added removed written :=
  { h with mem_iff := fun a => (h.mem_iff a).trans (hheap a).symm }

theorem set (h : PoolOk heap pool poolSize metrics added removed written) (ho : heap a = some o)
    (hreg : o'.clientRegistered = o.clientRegistered) :
    PoolOk (Function.update heap a (some o')) pool poolSize metrics added removed written := by
  apply h.heap_change
  intro b
  by_cases hb : b = a
  · subst hb
    simp [ho, hreg]
  · rw [Function.update_of_ne hb]

/-- socksv5_pool_add. -/
theorem add (h : PoolOk heap pool poolSize metrics added removed written)
    (hfree : ∀ o, heap a = some o → o.clientRegistered = false)
    (hreg : o'.clientRegistered = true) :
    PoolOk (Function.update heap a (some o')) (a :: pool) (poolSize + 1)
      (metricsConnectionOpened metrics) (added + 1) removed written where
  nodup := by
    refine List.nodup_cons.mpr ⟨?_, h.nodup⟩
    intro hmem
    obtain ⟨o, ho, hr⟩ := (h.mem_iff a).mp hmem
    rw [hfree o ho] at hr
    exact absurd hr (by simp)
  mem_iff := by
    intro b
    by_cases hb : b = a
    · subst hb
      simp [hreg]
    · rw [Function.update_of_ne hb, List.mem_cons, h.mem_iff b]
      simp [hb]
  size := by rw [h.size, List.length_cons, UInt64.ofNat_add]; rfl
  current := by
    show metrics.currentConnections + 1 = _
    rw [h.current, List.length_cons, UInt64.ofNat_add]
    rfl
  historic := by
    show metrics.historicConnections + 1 = _
    rw [h.historic, UInt64.ofNat_add]
    rfl
  added := by
    rw [h.added, List.length_cons]
    omega
  bytes := h.bytes

/-- The zero guard of metrics_connection_closed lets every decrement through. -/
theorem current_pos (h : PoolOk heap pool poolSize metrics added removed written)
    (hlen : pool.length ≤ ITEMS_MAX_SIZE) (ha : a ∈ pool) : metrics.currentConnections > 0 := by
  have hpos : 0 < pool.length := List.length_pos_of_mem ha
  have hlt : pool.length < 2 ^ 64 := lt_of_le_of_lt hlen (by decide)
  rw [h.current, gt_iff_lt, UInt64.lt_iff_toNat_lt, UInt64.toNat_ofNat_of_lt' hlt]
  exact hpos

/-- socksv5_pool_remove of a member. -/
theorem remove (h : PoolOk heap pool poolSize metrics added removed written)
    (hlen : pool.length ≤ ITEMS_MAX_SIZE) (ha : a ∈ pool) (hreg : o'.clientRegistered = false) :
    PoolOk (Function.update heap a (some o')) (pool.erase a) (poolSize - 1)
      (metricsConnectionClosed metrics) added (removed + 1) written := by
  have hpos := h.current_pos hlen ha
  obtain ⟨n, hn⟩ : ∃ n, pool.length = n + 1 :=
    ⟨pool.length - 1, by have hp := List.length_pos_of_mem ha; omega⟩
  have herase : (pool.erase a).length = n := by
    rw [List.length_erase_of_mem ha, hn]
    rfl
  have hpred : UInt64.ofNat pool.length - 1 = UInt64.ofNat n := by
    rw [hn, UInt64.ofNat_add]
    exact UInt64.add_sub_cancel _ _
  have hclosed : metricsConnectionClosed metrics =
      { metrics with currentConnections := metrics.currentConnections - 1 } := if_pos hpos
  exact
    { nodup := h.nodup.erase a
      mem_iff := by
        intro b
        rw [h.nodup.mem_erase_iff, h.mem_iff b]
        by_cases hb : b = a
        · subst hb
          simp [hreg]
        · simp [hb]
      size := by rw [h.size, hpred, herase]
      current := by
        rw [hclosed, herase, ← hpred, ← h.current]
      historic := by
        rw [hclosed]
        exact h.historic
      added := by
        rw [herase, h.added, hn]
        omega
      bytes := by
        rw [hclosed]
        exact h.bytes }

/-- relay_flush has written `bytes`. -/
theorem flush (h : PoolOk heap pool poolSize metrics added removed written) (bytes : ℕ) :
    PoolOk heap pool poolSize (metricsAddBytes metrics (UInt64.ofNat bytes)) added removed
      (written + bytes) :=
  { h with
    bytes := by
      show metrics.bytesTransferred + _ = _
      rw [h.bytes, UInt64.ofNat_add] }

end PoolOk

end SocksProxy.ServerPool
