import SocksProxy.ServerRefs

/-!
The lookups: who will pass the list of a getaddrinfo to freeaddrinfo, and which
connection a job still has to be reported to. As long as a connection is not
cancelled, at most one lookup is on its way to it.
-/
namespace SocksProxy.ServerLookups

open Kernel Ledgers ServerState ServerSteps ServerRefs

variable {heap : ℕ → Option Socks5} {workers : List DnsWorker} {pending : List BlockingJob}
variable {results : Ledger ℕ} {blockDone : List (ℕ × Lookup)} {a i : ℕ} {o o' : Socks5}
variable {w : DnsWorker} {st : WorkerState}

section Results

/-- The list that a connection, or a worker, will pass to freeaddrinfo. -/
def resultOf (heap : ℕ → Option Socks5) (workers : List DnsWorker) : ℕ ⊕ ℕ → Option ℕ
  | .inl a => (heap a).bind Socks5.dnsResult
  | .inr i => workers[i]?.bind fun w => w.state.result

structure ResultsOk (heap : ℕ → Option Socks5) (workers : List DnsWorker) (results : Ledger ℕ) :
    Prop where
  held : results.Held (resultOf heap workers)
  below : results.Below id results.issued.length

theorem resultOf_update (x : Option Socks5) :
    resultOf (Function.update heap a x) workers =
      Function.update (resultOf heap workers) (.inl a) (x.bind Socks5.dnsResult) := by
  funext y
  cases y with
  | inl b =>
    by_cases hb : b = a
    · subst hb
      simp [resultOf]
    · have hne : (Sum.inl b : ℕ ⊕ ℕ) ≠ .inl a := by simpa using hb
      simp [resultOf, Function.update_of_ne hb, Function.update_of_ne hne]
  | inr j => simp [resultOf]

theorem resultOf_worker (hi : workers[i]? = some w) :
    resultOf heap (workers.set i { w with state := st }) =
      Function.update (resultOf heap workers) (.inr i) st.result := by
  funext y
  cases y with
  | inl b => simp [resultOf]
  | inr j =>
    by_cases hj : i = j
    · subst hj
      simp [resultOf, set_get? workers hi]
    · have hne : (Sum.inr j : ℕ ⊕ ℕ) ≠ .inr i := by simpa using Ne.symm hj
      simp [resultOf, set_get? workers hi, hj, Function.update_of_ne hne]

namespace ResultsOk

/-- The list of a connection is left alone. -/
theorem set (h : ResultsOk heap workers results) (ho : heap a = some o)
    (hresult : o'.dnsResult = o.dnsResult) :
    ResultsOk (Function.update heap a (some o')) workers results := by
  refine ⟨?_, h.below⟩
  rw [resultOf_update]
  apply h.held.congr
  intro y
  by_cases hy : y = .inl a
  · subst hy
    simp [resultOf, ho, hresult]
  · rw [Function.update_of_ne hy]

theorem alloc (h : ResultsOk heap workers results) (hfree : heap a = none)
    (hresult : o.dnsResult = none) :
    ResultsOk (Function.update heap a (some o)) workers results := by
  refine ⟨?_, h.below⟩
  rw [resultOf_update]
  apply h.held.congr
  intro y
  by_cases hy : y = .inl a
  · subst hy
    simp [resultOf, hfree, hresult]
  · rw [Function.update_of_ne hy]

/-- A worker goes on with the list it has, or without one. -/
theorem move (h : ResultsOk heap workers results) (hi : workers[i]? = some w)
    (hresult : st.result = w.state.result) :
    ResultsOk heap (workers.set i { w with state := st }) results := by
  refine ⟨?_, h.below⟩
  rw [resultOf_worker hi]
  apply h.held.congr
  intro y
  by_cases hy : y = .inr i
  · subst hy
    simp [resultOf, hi, hresult]
  · rw [Function.update_of_ne hy]

theorem spawn (h : ResultsOk heap workers results) (hw : w.state = .resolving) :
    ResultsOk heap (workers ++ [w]) results := by
  refine ⟨?_, h.below⟩
  apply h.held.congr
  rintro (b | j)
  · rfl
  · simp only [resultOf]
    rcases Nat.lt_trichotomy j workers.length with hlt | heq | hgt
    · rw [List.getElem?_append_left hlt]
    · rw [heq, List.getElem?_concat_length]
      simp [hw, WorkerState.result]
    · rw [List.getElem?_eq_none (by simp; omega), List.getElem?_eq_none (by omega)]

/-- getaddrinfo returned a list, which the connection stores. -/
theorem store (h : ResultsOk heap workers results) (ho : heap a = some o)
    (hnone : o.dnsResult = none) (hsome : o'.dnsResult = some results.issued.length) :
    ResultsOk (Function.update heap a (some o')) workers (results.issue results.issued.length) := by
  refine ⟨?_, h.below.issue rfl⟩
  rw [resultOf_update, Option.bind_some, hsome]
  apply h.held.gain (h.below.not_mem rfl)
  simp [resultOf, ho, hnone]

/-- getaddrinfo returned a list, which the worker keeps. -/
theorem keep (h : ResultsOk heap workers results) (hi : workers[i]? = some w)
    (hnone : w.state.result = none) (hsome : st.result = some results.issued.length) :
    ResultsOk heap (workers.set i { w with state := st })
      (results.issue results.issued.length) := by
  refine ⟨?_, h.below.issue rfl⟩
  rw [resultOf_worker hi, hsome]
  apply h.held.gain (h.below.not_mem rfl)
  simp [resultOf, hi, hnone]

/-- The worker passes its list to freeaddrinfo. -/
theorem drop {r : ℕ} (h : ResultsOk heap workers results) (hi : workers[i]? = some w)
    (hr : w.state.result = some r) (hst : st.result = none) :
    ResultsOk heap (workers.set i { w with state := st }) (results.settle r) := by
  refine ⟨?_, h.below.settle r⟩
  rw [resultOf_worker hi, hst]
  apply h.held.lose
  simp [resultOf, hi, hr]

/-- socks5_free passes the list of the connection to freeaddrinfo. -/
theorem free (h : ResultsOk heap workers results) (ho : heap a = some o) :
    ResultsOk (Function.update heap a none) workers
      (match o.dnsResult with
        | some r => results.settle r
        | none => results) := by
  cases hr : o.dnsResult with
  | none =>
    refine ⟨?_, h.below⟩
    rw [resultOf_update]
    apply h.held.congr
    intro y
    by_cases hy : y = .inl a
    · subst hy
      simp [resultOf, ho, hr]
    · rw [Function.update_of_ne hy]
  | some r =>
    refine ⟨?_, h.below.settle r⟩
    rw [resultOf_update]
    apply h.held.lose
    simp [resultOf, ho, hr]

end ResultsOk

end Results

section Flight

/-- The lookups whose outcome is on its way to `a`. -/
def flying (workers : List DnsWorker) (pending : List BlockingJob) (a : ℕ) : ℕ :=
  (workers.countP fun w => w.socks = a && w.state.flying) + queued pending a

/-- `pending` are the queued jobs that handle_block_notifications has not come to. -/
structure LookupsOk (heap : ℕ → Option Socks5) (workers : List DnsWorker)
    (pending : List BlockingJob) (blockDone : List (ℕ × Lookup)) : Prop where
  flying_le : ∀ a o, heap a = some o → o.cancelled = false → flying workers pending a ≤ 1
  unresolved : ∀ (i : ℕ) w o, workers[i]? = some w → w.state = .resolving →
    heap w.socks = some o → o.cancelled = false → o.dnsResult = none
  uncancelled : ∀ (i : ℕ) w o, workers[i]? = some w → w.state.locks = true →
    heap w.socks = some o → o.cancelled = false
  job_fd : ∀ j ∈ pending, ∀ o, heap j.data = some o → o.closing = false → o.clientFd = some j.fd
  worker_fd : ∀ (i : ℕ) w o, workers[i]? = some w → w.state.flying = true →
    heap w.socks = some o → o.closing = false → o.clientFd = some w.clientFd
  handed : ∀ (i : ℕ) w, workers[i]? = some w → w.state = .unlocking true →
    ∃ j ∈ pending, j.data = w.socks ∧ j.lookup = w.lookup
  numbered : ∀ (i : ℕ) w, workers[i]? = some w → w.lookup.n = i
  job_worker : ∀ j ∈ pending, ∃ (i : ℕ) (w : DnsWorker), workers[i]? = some w ∧
    w.lookup = j.lookup ∧ w.state.flying = false
  pending_nodup : (pending.map BlockingJob.lookup).Nodup
  done_once : ∀ p ∈ blockDone, p.1 = p.2.serial ∧ p.2 ∉ pending.map BlockingJob.lookup ∧
    ∃ (i : ℕ) (w : DnsWorker), workers[i]? = some w ∧ w.lookup = p.2 ∧ w.state.flying = false
  done_nodup : (blockDone.map Prod.snd).Nodup

theorem flying_set (pending : List BlockingJob) (hi : workers[i]? = some w) (st : WorkerState) (a : ℕ) :
    flying (workers.set i { w with state := st }) pending a +
        (if w.socks = a ∧ w.state.flying = true then 1 else 0) =
      flying workers pending a + if w.socks = a ∧ st.flying = true then 1 else 0 := by
  have h := countP_set_add { w with state := st }
    (fun w => w.socks = a && w.state.flying) workers hi
  simp only [Bool.and_eq_true, decide_eq_true_eq] at h
  simp only [flying]
  omega

/-- A worker in flight counts. -/
theorem flying_pos (pending : List BlockingJob) (hi : workers[i]? = some w)
    (hw : w.state.flying = true) :
    0 < flying workers pending w.socks := by
  have hpos : 0 < workers.countP fun v => v.socks = w.socks && v.state.flying := by
    apply List.countP_pos_iff.mpr
    exact ⟨w, List.mem_of_getElem? hi, by simp [hw]⟩
  rw [flying]
  omega

/-- Two workers in flight to the same connection count twice. -/
theorem flying_two (pending : List BlockingJob) {j : ℕ} {v : DnsWorker}
    (hi : workers[i]? = some w) (hj : workers[j]? = some v) (hij : i ≠ j)
    (hsocks : v.socks = w.socks) (hw : w.state.flying = true)
    (hv : v.state.flying = true) : 2 ≤ flying workers pending w.socks := by
  -- without the first worker, the second still counts
  have hset := flying_set pending hi .exited w.socks
  have hj' : (workers.set i { w with state := .exited })[j]? = some v := by
    rw [set_get? workers hi, if_neg hij]
    exact hj
  have hpos := flying_pos pending hj' hv
  rw [hsocks] at hpos
  have hexited : WorkerState.exited.flying = false := rfl
  simp only [hw, hexited, and_self, and_false, if_true, Bool.false_eq_true, if_false] at hset
  omega

theorem append_get? {j : ℕ} {v : DnsWorker} (h : (workers ++ [w])[j]? = some v) :
    workers[j]? = some v ∨ j = workers.length ∧ v = w := by
  rcases Nat.lt_trichotomy j workers.length with hlt | heq | hgt
  · rw [List.getElem?_append_left hlt] at h
    exact Or.inl h
  · rw [heq, List.getElem?_concat_length, Option.some.injEq] at h
    exact Or.inr ⟨heq, h.symm⟩
  · rw [List.getElem?_eq_none (by simp; omega)] at h
    exact absurd h (by simp)

namespace LookupsOk

/-- A connection is updated. It may be cancelled while no worker is in its
section, and start to close; its list may be forgotten. -/
theorem set (h : LookupsOk heap workers pending blockDone) (ho : heap a = some o)
    (hcancelled : o'.cancelled = o.cancelled ∨
      o'.cancelled = true ∧ ∀ (i : ℕ) w, workers[i]? = some w → w.socks = a → w.state.locks = false)
    (hclosing : o'.closing = false → o.closing = false ∧ o'.clientFd = o.clientFd)
    (hresult : o'.dnsResult = o.dnsResult ∨ o'.dnsResult = none) :
    LookupsOk (Function.update heap a (some o')) workers pending blockDone := by
  have hcancelled' : o'.cancelled = false → o.cancelled = false := by
    intro hfalse
    rcases hcancelled with heq | ⟨htrue, -⟩
    · exact heq ▸ hfalse
    · rw [htrue] at hfalse
      exact absurd hfalse (by simp)
  refine ⟨?_, ?_, ?_, ?_, ?_, h.handed, h.numbered, h.job_worker, h.pending_nodup, h.done_once,
    h.done_nodup⟩
  · intro b p hp hfalse
    rcases update_some hp with ⟨rfl, rfl⟩ | ⟨-, hp⟩
    · exact h.flying_le b o ho (hcancelled' hfalse)
    · exact h.flying_le b p hp hfalse
  · intro i w p hi hw hp hfalse
    rcases update_some hp with ⟨hb, rfl⟩ | ⟨-, hp⟩
    · rcases hresult with heq | hnone
      · rw [heq]
        exact h.unresolved i w o hi hw (hb ▸ ho) (hcancelled' hfalse)
      · exact hnone
    · exact h.unresolved i w p hi hw hp hfalse
  · intro i w p hi hw hp
    rcases update_some hp with ⟨hb, rfl⟩ | ⟨-, hp⟩
    · rcases hcancelled with heq | ⟨-, hlocks⟩
      · rw [heq]
        exact h.uncancelled i w o hi hw (hb ▸ ho)
      · rw [hlocks i w hi hb] at hw
        exact absurd hw (by simp)
    · exact h.uncancelled i w p hi hw hp
  · intro j hj p hp hfalse
    rcases update_some hp with ⟨hb, rfl⟩ | ⟨-, hp⟩
    · obtain ⟨hopen, hfd⟩ := hclosing hfalse
      rw [hfd]
      exact h.job_fd j hj o (hb ▸ ho) hopen
    · exact h.job_fd j hj p hp hfalse
  · intro i w p hi hw hp hfalse
    rcases update_some hp with ⟨hb, rfl⟩ | ⟨-, hp⟩
    · obtain ⟨hopen, hfd⟩ := hclosing hfalse
      rw [hfd]
      exact h.worker_fd i w o hi hw (hb ▸ ho) hopen
    · exact h.worker_fd i w p hi hw hp hfalse

/-- Connections are gone, or were allocated where no worker and no job points. -/
theorem heap_change {heap' : ℕ → Option Socks5} (h : LookupsOk heap workers pending blockDone)
    (hheap : ∀ b p, heap' b = some p → heap b = some p ∨
      (∀ (i : ℕ) w, workers[i]? = some w → w.socks = b →
        w.state.flying = false ∧ w.state.locks = false) ∧ ∀ j ∈ pending, j.data ≠ b) :
    LookupsOk heap' workers pending blockDone := by
  have hworker : ∀ (i : ℕ) w p, workers[i]? = some w →
      w.state.flying = true ∨ w.state.locks = true → heap' w.socks = some p →
      heap w.socks = some p := by
    intro i w p hi hw hp
    rcases hheap _ p hp with hp | ⟨hfree, -⟩
    · exact hp
    · obtain ⟨hflying, hlocks⟩ := hfree i w hi rfl
      rw [hflying, hlocks] at hw
      simp at hw
  refine ⟨?_, ?_, ?_, ?_, ?_, h.handed, h.numbered, h.job_worker, h.pending_nodup, h.done_once,
    h.done_nodup⟩
  · intro b p hp hfalse
    rcases hheap b p hp with hp | ⟨hfree, hjobs⟩
    · exact h.flying_le b p hp hfalse
    · have hworkers : workers.countP (fun w => w.socks = b && w.state.flying) = 0 := by
        apply List.countP_eq_zero.mpr
        intro w hw hcount
        rw [Bool.and_eq_true, decide_eq_true_eq] at hcount
        obtain ⟨i, hi⟩ := List.getElem?_of_mem hw
        rw [(hfree i w hi hcount.1).1] at hcount
        exact absurd hcount.2 (by simp)
      have hqueued : queued pending b = 0 := by
        apply List.countP_eq_zero.mpr
        intro j hj hdata
        exact hjobs j hj (by simpa using hdata)
      rw [flying, hworkers, hqueued]
      omega
  · intro i w p hi hw hp hfalse
    exact h.unresolved i w p hi hw (hworker i w p hi (Or.inl (by rw [hw]; rfl)) hp) hfalse
  · intro i w p hi hw hp
    exact h.uncancelled i w p hi hw (hworker i w p hi (Or.inr hw) hp)
  · intro j hj p hp hfalse
    rcases hheap _ p hp with hp | ⟨-, hjobs⟩
    · exact h.job_fd j hj p hp hfalse
    · exact absurd rfl (hjobs j hj)
  · intro i w p hi hw hp hfalse
    exact h.worker_fd i w p hi hw (hworker i w p hi (Or.inl hw) hp) hfalse

/-- A worker lands, unlocks or leaves; it takes no other lookup. -/
theorem move (h : LookupsOk heap workers pending blockDone) (hi : workers[i]? = some w)
    (hflying : st.flying = false) (hlocks : st.locks = true → w.state.locks = true)
    (hhanded : st ≠ .unlocking true) :
    LookupsOk heap (workers.set i { w with state := st }) pending blockDone := by
  have hget : ∀ (j : ℕ) v, (workers.set i { w with state := st })[j]? = some v →
      j = i ∧ v = { w with state := st } ∨ workers[j]? = some v := by
    intro j v hj
    rw [set_get? workers hi] at hj
    split at hj
    next heq => exact Or.inl ⟨heq.symm, (Option.some.inj hj).symm⟩
    next => exact Or.inr hj
  have hland : ∀ l : Lookup, (∃ (j : ℕ) (v : DnsWorker), workers[j]? = some v ∧ v.lookup = l ∧
      v.state.flying = false) → ∃ (j : ℕ) (v : DnsWorker),
      (workers.set i { w with state := st })[j]? = some v ∧ v.lookup = l ∧
        v.state.flying = false := by
    rintro l ⟨j, v, hj, hl, hv⟩
    by_cases hij : i = j
    · subst hij
      rw [hi, Option.some.injEq] at hj
      exact ⟨i, { w with state := st }, by rw [set_get? workers hi, if_pos rfl], hj ▸ hl, hflying⟩
    · exact ⟨j, v, by rw [set_get? workers hi, if_neg hij]; exact hj, hl, hv⟩
  refine ⟨?_, ?_, ?_, h.job_fd, ?_, ?_, ?_, ?_, h.pending_nodup, ?_, h.done_nodup⟩
  · intro a o ho hfalse
    have hset := flying_set pending hi st a
    have hle := h.flying_le a o ho hfalse
    simp only [hflying, Bool.false_eq_true, and_false, if_false] at hset
    omega
  · intro j v o hj hv ho hfalse
    rcases hget j v hj with ⟨-, rfl⟩ | hj
    · have hst : st = .resolving := hv
      rw [hst] at hflying
      exact absurd hflying (by decide)
    · exact h.unresolved j v o hj hv ho hfalse
  · intro j v o hj hv ho
    rcases hget j v hj with ⟨-, rfl⟩ | hj
    · exact h.uncancelled i w o hi (hlocks hv) ho
    · exact h.uncancelled j v o hj hv ho
  · intro j v o hj hv ho hfalse
    rcases hget j v hj with ⟨-, rfl⟩ | hj
    · have hst : st.flying = true := hv
      rw [hflying] at hst
      exact absurd hst (by simp)
    · exact h.worker_fd j v o hj hv ho hfalse
  · intro j v hj hv
    rcases hget j v hj with ⟨-, rfl⟩ | hj
    · exact absurd hv hhanded
    · exact h.handed j v hj hv
  · intro j v hj
    rcases hget j v hj with ⟨rfl, rfl⟩ | hj
    · exact h.numbered j w hi
    · exact h.numbered j v hj
  · intro j hj
    exact hland j.lookup (h.job_worker j hj)
  · intro p hp
    obtain ⟨hserial, hmem, hw⟩ := h.done_once p hp
    exact ⟨hserial, hmem, hland p.2 hw⟩

/-- The worker has found the connection uncancelled and stored what it found. -/
theorem store (h : LookupsOk heap workers pending blockDone) (hi : workers[i]? = some w)
    (hw : w.state = .resolving) (ho : heap w.socks = some o) (hopen : o.cancelled = false)
    (hcancelled : o'.cancelled = o.cancelled) (hclosing : o'.closing = o.closing)
    (hfd : o'.clientFd = o.clientFd) :
    LookupsOk (Function.update heap w.socks (some o'))
      (workers.set i { w with state := .notifying }) pending blockDone := by
  have hflies : w.state.flying = true := by
    rw [hw]
    rfl
  have hget : ∀ (j : ℕ) v, (workers.set i { w with state := .notifying })[j]? = some v →
      j = i ∧ v = { w with state := .notifying } ∨ i ≠ j ∧ workers[j]? = some v := by
    intro j v hj
    rw [set_get? workers hi] at hj
    split at hj
    next heq => exact Or.inl ⟨heq.symm, (Option.some.inj hj).symm⟩
    next hne => exact Or.inr ⟨hne, hj⟩
  have hland : ∀ l : Lookup, (∃ (j : ℕ) (v : DnsWorker), workers[j]? = some v ∧ v.lookup = l ∧
      v.state.flying = false) → ∃ (j : ℕ) (v : DnsWorker),
      (workers.set i { w with state := .notifying })[j]? = some v ∧ v.lookup = l ∧
        v.state.flying = false := by
    rintro l ⟨j, v, hj, hl, hv⟩
    have hij : i ≠ j := by
      rintro rfl
      rw [hi, Option.some.injEq] at hj
      rw [← hj, hflies] at hv
      exact absurd hv (by simp)
    exact ⟨j, v, by rw [set_get? workers hi, if_neg hij]; exact hj, hl, hv⟩
  refine ⟨?_, ?_, ?_, ?_, ?_, ?_, ?_, ?_, h.pending_nodup, ?_, h.done_nodup⟩
  · intro a p hp hfalse
    have hset := flying_set pending hi .notifying a
    have hnotifying : WorkerState.notifying.flying = true := rfl
    simp only [hflies, hnotifying, and_true] at hset
    rcases update_some hp with ⟨rfl, rfl⟩ | ⟨-, hp⟩
    · have hle := h.flying_le w.socks o ho hopen
      omega
    · have hle := h.flying_le a p hp hfalse
      omega
  · intro j v p hj hv hp hfalse
    rcases hget j v hj with ⟨-, rfl⟩ | ⟨hij, hj⟩
    · exact absurd hv (by simp)
    · rcases update_some hp with ⟨hsocks, rfl⟩ | ⟨-, hp⟩
      · -- a second worker in flight is one too many
        have htwo := flying_two pending hi hj hij hsocks hflies (by rw [hv]; rfl)
        have hle := h.flying_le w.socks o ho hopen
        omega
      · exact h.unresolved j v p hj hv hp hfalse
  · intro j v p hj hv hp
    rcases update_some hp with ⟨-, rfl⟩ | ⟨hne, hp⟩
    · rw [hcancelled]
      exact hopen
    · rcases hget j v hj with ⟨-, rfl⟩ | ⟨-, hj⟩
      · exact absurd rfl hne
      · exact h.uncancelled j v p hj hv hp
  · intro j hj p hp hfalse
    rcases update_some hp with ⟨hb, rfl⟩ | ⟨-, hp⟩
    · rw [hfd]
      exact h.job_fd j hj o (hb ▸ ho) (hclosing ▸ hfalse)
    · exact h.job_fd j hj p hp hfalse
  · intro j v p hj hv hp hfalse
    rcases update_some hp with ⟨hb, rfl⟩ | ⟨hne, hp⟩
    · rw [hfd]
      rcases hget j v hj with ⟨-, rfl⟩ | ⟨-, hj⟩
      · exact h.worker_fd i w o hi hflies ho (hclosing ▸ hfalse)
      · exact h.worker_fd j v o hj hv (hb ▸ ho) (hclosing ▸ hfalse)
    · rcases hget j v hj with ⟨-, rfl⟩ | ⟨-, hj⟩
      · exact absurd rfl hne
      · exact h.worker_fd j v p hj hv hp hfalse
  · intro j v hj hv
    rcases hget j v hj with ⟨-, rfl⟩ | ⟨-, hj⟩
    · exact absurd hv (by simp)
    · exact h.handed j v hj hv
  · intro j v hj
    rcases hget j v hj with ⟨rfl, rfl⟩ | ⟨-, hj⟩
    · exact h.numbered j w hi
    · exact h.numbered j v hj
  · intro j hj
    exact hland j.lookup (h.job_worker j hj)
  · intro p hp
    obtain ⟨hserial, hmem, hl⟩ := h.done_once p hp
    exact ⟨hserial, hmem, hland p.2 hl⟩

/-- The worker queues its job; it still has to unlock. -/
theorem queue (h : LookupsOk heap workers pending blockDone) (hi : workers[i]? = some w)
    (hw : w.state = .notifying) :
    LookupsOk heap (workers.set i { w with state := .unlocking true })
      ({ fd := w.clientFd, data := w.socks, lookup := w.lookup } :: pending) blockDone := by
  have hflies : w.state.flying = true := by
    rw [hw]
    rfl
  have hlocks : w.state.locks = true := by
    rw [hw]
    rfl
  have hget : ∀ (j : ℕ) v, (workers.set i { w with state := .unlocking true })[j]? = some v →
      j = i ∧ v = { w with state := .unlocking true } ∨ workers[j]? = some v := by
    intro j v hj
    rw [set_get? workers hi] at hj
    split at hj
    next heq => exact Or.inl ⟨heq.symm, (Option.some.inj hj).symm⟩
    next => exact Or.inr hj
  have hself : (workers.set i { w with state := .unlocking true })[i]? =
      some { w with state := .unlocking true } := by
    rw [set_get? workers hi, if_pos rfl]
  have hland : ∀ l : Lookup, (∃ (j : ℕ) (v : DnsWorker), workers[j]? = some v ∧ v.lookup = l ∧
      v.state.flying = false) → l ≠ w.lookup ∧ ∃ (j : ℕ) (v : DnsWorker),
      (workers.set i { w with state := .unlocking true })[j]? = some v ∧ v.lookup = l ∧
        v.state.flying = false := by
    rintro l ⟨j, v, hj, hl, hv⟩
    have hij : i ≠ j := by
      rintro rfl
      rw [hi, Option.some.injEq] at hj
      rw [← hj, hflies] at hv
      exact absurd hv (by simp)
    refine ⟨?_, j, v, by rw [set_get? workers hi, if_neg hij]; exact hj, hl, hv⟩
    -- lookups are numbered by their workers
    rintro rfl
    have hnum := h.numbered j v hj
    rw [hl, h.numbered i w hi] at hnum
    exact hij hnum
  refine ⟨?_, ?_, ?_, ?_, ?_, ?_, ?_, ?_, ?_, ?_, h.done_nodup⟩
  · intro a p hp hfalse
    have hset := flying_set pending hi (.unlocking true) a
    have hunlocking : (WorkerState.unlocking true).flying = false := rfl
    have hle := h.flying_le a p hp hfalse
    simp only [hflies, hunlocking, and_true, and_false, Bool.false_eq_true, if_false] at hset
    simp only [flying, queued_cons] at hset hle ⊢
    omega
  · intro j v p hj hv hp hfalse
    rcases hget j v hj with ⟨-, rfl⟩ | hj
    · exact absurd hv (by simp)
    · exact h.unresolved j v p hj hv hp hfalse
  · intro j v p hj hv hp
    rcases hget j v hj with ⟨-, rfl⟩ | hj
    · exact h.uncancelled i w p hi hlocks hp
    · exact h.uncancelled j v p hj hv hp
  · intro j hj p hp hfalse
    rcases List.mem_cons.mp hj with rfl | hj
    · exact h.worker_fd i w p hi hflies hp hfalse
    · exact h.job_fd j hj p hp hfalse
  · intro j v p hj hv hp hfalse
    rcases hget j v hj with ⟨-, rfl⟩ | hj
    · exact absurd hv (by simp [WorkerState.flying])
    · exact h.worker_fd j v p hj hv hp hfalse
  · intro j v hj hv
    rcases hget j v hj with ⟨-, rfl⟩ | hj
    · exact ⟨_, List.mem_cons_self, rfl, rfl⟩
    · obtain ⟨k, hk, hdata⟩ := h.handed j v hj hv
      exact ⟨k, List.mem_cons_of_mem _ hk, hdata⟩
  · intro j v hj
    rcases hget j v hj with ⟨rfl, rfl⟩ | hj
    · exact h.numbered j w hi
    · exact h.numbered j v hj
  · intro j hj
    rcases List.mem_cons.mp hj with rfl | hj
    · exact ⟨i, _, hself, rfl, rfl⟩
    · exact (hland j.lookup (h.job_worker j hj)).2
  · refine List.nodup_cons.mpr ⟨?_, h.pending_nodup⟩
    intro hmem
    obtain ⟨j, hj, hl⟩ := List.mem_map.mp hmem
    exact (hland j.lookup (h.job_worker j hj)).1 hl
  · intro p hp
    obtain ⟨hserial, hmem, hl⟩ := h.done_once p hp
    obtain ⟨hne, hl⟩ := hland p.2 hl
    exact ⟨hserial, fun hcons => (List.mem_cons.mp hcons).elim hne hmem, hl⟩

/-- A worker is started for a connection to which no lookup is on its way. -/
theorem spawn {fd : ℕ} {l : Lookup} (h : LookupsOk heap workers pending blockDone)
    (ho : heap a = some o) (hidle : flying workers pending a = 0) (hnone : o.dnsResult = none)
    (hfd : o.clientFd = some fd) (hn : l.n = workers.length) :
    LookupsOk heap (workers ++ [⟨a, fd, l, .resolving⟩]) pending blockDone := by
  have hland : ∀ l : Lookup, (∃ (j : ℕ) (v : DnsWorker), workers[j]? = some v ∧ v.lookup = l ∧
      v.state.flying = false) → ∃ (j : ℕ) (v : DnsWorker),
      (workers ++ [⟨a, fd, l, .resolving⟩])[j]? = some v ∧ v.lookup = l ∧
        v.state.flying = false := by
    rintro l ⟨j, v, hj, hl, hv⟩
    obtain ⟨hlt, -⟩ := List.getElem?_eq_some_iff.mp hj
    exact ⟨j, v, by rw [List.getElem?_append_left hlt]; exact hj, hl, hv⟩
  refine ⟨?_, ?_, ?_, h.job_fd, ?_, ?_, ?_, ?_, h.pending_nodup, ?_, h.done_nodup⟩
  · intro b p hp hfalse
    have hle := h.flying_le b p hp hfalse
    simp only [flying, List.countP_append, List.countP_singleton] at hidle hle ⊢
    by_cases hb : a = b
    · subst hb
      rw [if_pos (by simp [WorkerState.flying])]
      omega
    · rw [if_neg (by simp [hb])]
      omega
  · intro j v p hj hv hp hfalse
    rcases append_get? hj with hj | ⟨-, rfl⟩
    · exact h.unresolved j v p hj hv hp hfalse
    · obtain rfl := Option.some.inj (ho.symm.trans hp)
      exact hnone
  · intro j v p hj hv hp
    rcases append_get? hj with hj | ⟨-, rfl⟩
    · exact h.uncancelled j v p hj hv hp
    · exact absurd hv (by simp [WorkerState.locks])
  · intro j v p hj hv hp hfalse
    rcases append_get? hj with hj | ⟨-, rfl⟩
    · exact h.worker_fd j v p hj hv hp hfalse
    · obtain rfl := Option.some.inj (ho.symm.trans hp)
      exact hfd
  · intro j v hj hv
    rcases append_get? hj with hj | ⟨-, rfl⟩
    · exact h.handed j v hj hv
    · exact absurd hv (by simp)
  · intro j v hj
    rcases append_get? hj with hj | ⟨rfl, rfl⟩
    · exact h.numbered j v hj
    · exact hn
  · intro j hj
    obtain ⟨k, v, hk, hl, hv⟩ := h.job_worker j hj
    obtain ⟨hlt, -⟩ := List.getElem?_eq_some_iff.mp hk
    exact ⟨k, v, by rw [List.getElem?_append_left hlt]; exact hk, hl, hv⟩
  · intro p hp
    obtain ⟨hserial, hmem, k, v, hk, hl, hv⟩ := h.done_once p hp
    obtain ⟨hlt, -⟩ := List.getElem?_eq_some_iff.mp hk
    exact ⟨hserial, hmem, k, v, by rw [List.getElem?_append_left hlt]; exact hk, hl, hv⟩

/-- handle_block_notifications has come to the head of the list, whose worker
has left its section. -/
theorem handle {j : BlockingJob} (h : LookupsOk heap workers (j :: pending) blockDone)
    (hfree : ∀ (i : ℕ) w, workers[i]? = some w → w.state = .unlocking true →
      w.lookup ≠ j.lookup) : LookupsOk heap workers pending blockDone where
  flying_le := by
    intro a o ho hfalse
    have hle := h.flying_le a o ho hfalse
    simp only [flying, queued_cons] at hle ⊢
    omega
  unresolved := h.unresolved
  uncancelled := h.uncancelled
  job_fd := fun k hk => h.job_fd k (List.mem_cons_of_mem j hk)
  worker_fd := h.worker_fd
  handed := by
    intro i w hi hw
    obtain ⟨k, hk, hdata, hl⟩ := h.handed i w hi hw
    rcases List.mem_cons.mp hk with rfl | hk
    · exact absurd hl.symm (hfree i w hi hw)
    · exact ⟨k, hk, hdata, hl⟩
  numbered := h.numbered
  job_worker := fun k hk => h.job_worker k (List.mem_cons_of_mem j hk)
  pending_nodup := (List.nodup_cons.mp h.pending_nodup).2
  done_once := by
    intro p hp
    obtain ⟨hserial, hmem, hw⟩ := h.done_once p hp
    exact ⟨hserial, fun hp => hmem (List.mem_cons_of_mem _ hp), hw⟩
  done_nodup := h.done_nodup

/-- The same, and handle_block_done runs on the connection of the lookup. -/
theorem report {j : BlockingJob} {k : ℕ} (h : LookupsOk heap workers (j :: pending) blockDone)
    (hfree : ∀ (i : ℕ) w, workers[i]? = some w → w.state = .unlocking true →
      w.lookup ≠ j.lookup) (hk : k = j.lookup.serial) :
    LookupsOk heap workers pending ((k, j.lookup) :: blockDone) :=
  { h.handle hfree with
    done_once := by
      intro p hp
      rcases List.mem_cons.mp hp with rfl | hp
      · exact ⟨hk, (List.nodup_cons.mp h.pending_nodup).1, h.job_worker j List.mem_cons_self⟩
      · exact (h.handle hfree).done_once p hp
    done_nodup := by
      refine List.nodup_cons.mpr ⟨?_, h.done_nodup⟩
      intro hmem
      obtain ⟨p, hp, hl⟩ := List.mem_map.mp hmem
      apply (h.done_once p hp).2.1
      rw [hl]
      exact List.mem_cons_self }

end LookupsOk

end Flight

end SocksProxy.ServerLookups
