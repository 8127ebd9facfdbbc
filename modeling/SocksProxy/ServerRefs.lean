import SocksProxy.ServerSteps

/-!
Who holds a reference to a connection: its initial owner, the workers that look
up a name for it, and the jobs that wait to be reported. Inside a step one more
may be on its way from one holder to another, or to socks5_release.
-/
namespace SocksProxy.ServerRefs

open Kernel Ledgers ServerState ServerSteps

variable {heap : ℕ → Option Socks5} {workers : List DnsWorker} {jobs : List BlockingJob}
variable {states owners : Ledger ℕ} {accepted a b i : ℕ} {o o' : Socks5} {w w' : DnsWorker}
variable {borrowed : Option ℕ}

/-- The workers that hold a reference to `a`. -/
def holders (workers : List DnsWorker) (a : ℕ) : ℕ :=
  workers.countP fun w => w.socks = a && w.state.holds

/-- The queued jobs for `a`. -/
def queued (jobs : List BlockingJob) (a : ℕ) : ℕ := jobs.countP fun j => j.data = a

/-- Everybody who holds a reference, and the step itself when it has `borrowed` one. -/
def holdings (workers : List DnsWorker) (jobs : List BlockingJob) (borrowed : Option ℕ)
    (a : ℕ) (o : Socks5) : ℕ :=
  (if o.released then 0 else 1) + holders workers a + queued jobs a +
    if borrowed = some a then 1 else 0

/-- The count of references is that of the holders, and all of them hold
connections that are alive; what was allocated was freed once, or lives. -/
structure RefsOk (borrowed : Option ℕ) (heap : ℕ → Option Socks5) (workers : List DnsWorker)
    (jobs : List BlockingJob) (states owners : Ledger ℕ) (accepted : ℕ) : Prop where
  references_eq : ∀ a o, heap a = some o → o.references = holdings workers jobs borrowed a o
  references_pos : ∀ a o, heap a = some o → 0 < o.references
  borrowed_live : ∀ a, borrowed = some a → ∃ o, heap a = some o
  worker_live : ∀ (i : ℕ) w, workers[i]? = some w → w.state.holds = true →
    ∃ o, heap w.socks = some o ∧ o.serial = w.lookup.serial
  job_live : ∀ j ∈ jobs, ∃ o, heap j.data = some o ∧ o.serial = j.lookup.serial
  serial_inj : ∀ a b o o', heap a = some o → heap b = some o' → o.serial = o'.serial → a = b
  states_balanced : states.Balanced fun k => ∃ a o, heap a = some o ∧ o.serial = k
  owners_balanced : owners.Balanced fun k =>
    ∃ a o, heap a = some o ∧ o.serial = k ∧ o.released = false
  states_below : states.Below id accepted
  owners_below : owners.Below id accepted

section Counts

theorem set_get? (l : List DnsWorker) (hi : l[i]? = some w) (w' : DnsWorker) (j : ℕ) :
    (l.set i w')[j]? = if i = j then some w' else l[j]? := by
  obtain ⟨hlt, -⟩ := List.getElem?_eq_some_iff.mp hi
  rw [List.getElem?_set]
  by_cases hij : i = j
  · subst hij
    simp [hlt]
  · simp [hij]

/-- Replacing one element exchanges its share of the count. -/
theorem countP_set_add (w' : DnsWorker) (p : DnsWorker → Bool) (l : List DnsWorker)
    (hi : l[i]? = some w) :
    (l.set i w').countP p + (if p w then 1 else 0) = l.countP p + if p w' then 1 else 0 := by
  obtain ⟨hlt, hget⟩ := List.getElem?_eq_some_iff.mp hi
  rw [List.countP_set hlt, hget]
  by_cases hp : p w = true
  · have hpos : 0 < l.countP p :=
      List.countP_pos_iff.mpr ⟨w, hget ▸ List.getElem_mem hlt, hp⟩
    simp only [hp, if_true]
    omega
  · simp [hp]

theorem holders_set (hi : workers[i]? = some w) (st : WorkerState) (a : ℕ) :
    holders (workers.set i { w with state := st }) a +
        (if w.socks = a ∧ w.state.holds = true then 1 else 0) =
      holders workers a + if w.socks = a ∧ st.holds = true then 1 else 0 := by
  have h := countP_set_add { w with state := st }
    (fun w => w.socks = a && w.state.holds) workers hi
  simpa [holders] using h

theorem holders_append (a : ℕ) :
    holders (workers ++ [w]) a =
      holders workers a + if w.socks = a ∧ w.state.holds = true then 1 else 0 := by
  by_cases h : w.socks = a ∧ w.state.holds = true
  · simp [holders, List.countP_append, h]
  · rw [if_neg h]
    simp only [holders, List.countP_append, List.countP_singleton]
    rw [if_neg (by simpa using h)]

theorem queued_cons (j : BlockingJob) (a : ℕ) :
    queued (j :: jobs) a = queued jobs a + if j.data = a then 1 else 0 := by
  simp [queued, List.countP_cons]

end Counts

section Agree

/-! Two heaps that look alike through some of the fields of their connections. -/

variable {β : Type*} {f : Socks5 → β} {heap' : ℕ → Option Socks5}

def Agree (f : Socks5 → β) (heap heap' : ℕ → Option Socks5) : Prop :=
  ∀ a, (heap' a).map f = (heap a).map f

theorem Agree.symm (h : Agree f heap heap') : Agree f heap' heap := fun a => (h a).symm

theorem Agree.view (h : Agree f heap heap') (ho : heap' a = some o') :
    ∃ o, heap a = some o ∧ f o' = f o := by
  have ha := h a
  rw [ho, Option.map_some, eq_comm, Option.map_eq_some_iff] at ha
  obtain ⟨o, hp, hf⟩ := ha
  exact ⟨o, hp, hf.symm⟩

theorem agree_set (ho : heap a = some o) (hf : f o' = f o) :
    Agree f heap (Function.update heap a (some o')) := by
  intro b
  by_cases hb : b = a
  · subst hb
    simp [ho, hf]
  · simp [Function.update_of_ne hb]

theorem update_some {p : Socks5} (h : Function.update heap a (some o') b = some p) :
    b = a ∧ p = o' ∨ b ≠ a ∧ heap b = some p := by
  by_cases hb : b = a
  · subst hb
    rw [Function.update_self, Option.some.injEq] at h
    exact Or.inl ⟨rfl, h.symm⟩
  · rw [Function.update_of_ne hb] at h
    exact Or.inr ⟨hb, h⟩

theorem update_none {p : Socks5} (h : Function.update heap a none b = some p) :
    b ≠ a ∧ heap b = some p := by
  by_cases hb : b = a
  · subst hb
    rw [Function.update_self] at h
    exact absurd h (by simp)
  · rw [Function.update_of_ne hb] at h
    exact ⟨hb, h⟩

/-- A connection that was there is there after its update. -/
theorem some_update {p : Socks5} (h : heap b = some p) :
    Function.update heap a (some o') b = some (if b = a then o' else p) := by
  by_cases hb : b = a
  · subst hb
    simp
  · rw [Function.update_of_ne hb, h, if_neg hb]

end Agree

namespace RefsOk

/-- What the books of references look at. -/
def key (o : Socks5) : ℕ × ℕ × Bool := (o.serial, o.references, o.released)

theorem congr {heap' : ℕ → Option Socks5}
    (h : RefsOk borrowed heap workers jobs states owners accepted) (hkey : Agree key heap heap') :
    RefsOk borrowed heap' workers jobs states owners accepted := by
  have hview : ∀ b p', heap' b = some p' → ∃ p, heap b = some p ∧
      p'.serial = p.serial ∧ p'.references = p.references ∧ p'.released = p.released := by
    intro b p' hp
    obtain ⟨p, hp', hf⟩ := hkey.view hp
    simp only [key, Prod.mk.injEq] at hf
    exact ⟨p, hp', hf⟩
  have hback : ∀ b p, heap b = some p → ∃ p', heap' b = some p' ∧
      p'.serial = p.serial ∧ p'.released = p.released := by
    intro b p hp
    obtain ⟨p', hp', hf⟩ := hkey.symm.view hp
    simp only [key, Prod.mk.injEq] at hf
    exact ⟨p', hp', hf.1.symm, hf.2.2.symm⟩
  refine ⟨?_, ?_, ?_, ?_, ?_, ?_, ?_, ?_, h.states_below, h.owners_below⟩
  · intro b p' hp
    obtain ⟨p, hp, -, hr, hrel⟩ := hview b p' hp
    rw [hr, h.references_eq b p hp, holdings, holdings, hrel]
  · intro b p' hp
    obtain ⟨p, hp, -, hr, -⟩ := hview b p' hp
    rw [hr]
    exact h.references_pos b p hp
  · intro b hb
    obtain ⟨p, hp⟩ := h.borrowed_live b hb
    obtain ⟨p', hp', -⟩ := hback b p hp
    exact ⟨p', hp'⟩
  · intro i w hi hholds
    obtain ⟨p, hp, hs⟩ := h.worker_live i w hi hholds
    obtain ⟨p', hp', hs', -⟩ := hback _ p hp
    exact ⟨p', hp', hs'.trans hs⟩
  · intro j hj
    obtain ⟨p, hp, hs⟩ := h.job_live j hj
    obtain ⟨p', hp', hs', -⟩ := hback _ p hp
    exact ⟨p', hp', hs'.trans hs⟩
  · intro b c p p' hp hp' hs
    obtain ⟨q, hq, hqs, -⟩ := hview b p hp
    obtain ⟨q', hq', hqs', -⟩ := hview c p' hp'
    exact h.serial_inj b c q q' hq hq' (by rw [← hqs, ← hqs', hs])
  · apply h.states_balanced.congr
    intro k
    constructor
    · rintro ⟨b, p', hp, hk⟩
      obtain ⟨p, hp, hs, -⟩ := hview b p' hp
      exact ⟨b, p, hp, hs ▸ hk⟩
    · rintro ⟨b, p, hp, hk⟩
      obtain ⟨p', hp', hs, -⟩ := hback b p hp
      exact ⟨b, p', hp', hs.trans hk⟩
  · apply h.owners_balanced.congr
    intro k
    constructor
    · rintro ⟨b, p', hp, hk, hrel⟩
      obtain ⟨p, hp, hs, -, hr⟩ := hview b p' hp
      exact ⟨b, p, hp, hs ▸ hk, hr ▸ hrel⟩
    · rintro ⟨b, p, hp, hk, hrel⟩
      obtain ⟨p', hp', hs, hr⟩ := hback b p hp
      exact ⟨b, p', hp', hs.trans hk, hr.trans hrel⟩

/-- Fields other than the serial, the count and the owner's share may change. -/
theorem set (h : RefsOk borrowed heap workers jobs states owners accepted) (ho : heap a = some o)
    (hkey : key o' = key o) :
    RefsOk borrowed (Function.update heap a (some o')) workers jobs states owners accepted :=
  h.congr (agree_set ho hkey)

/-- An update that keeps the serial, with a count that fits the new holdings. -/
private theorem update (o' : Socks5) {borrowed' : Option ℕ} {owners' : Ledger ℕ}
    (h : RefsOk borrowed heap workers jobs states owners accepted) (ho : heap a = some o)
    (hserial : o'.serial = o.serial) (hpos : 0 < o'.references)
    (heq : o'.references = holdings workers jobs borrowed' a o')
    (hother : ∀ b o, b ≠ a → holdings workers jobs borrowed' b o = holdings workers jobs borrowed b o)
    (hborrowed : borrowed' = none ∨ borrowed' = some a)
    (howners : owners'.Balanced fun k => ∃ b p,
      Function.update heap a (some o') b = some p ∧ p.serial = k ∧ p.released = false)
    (hbelow : owners'.Below id accepted) :
    RefsOk borrowed' (Function.update heap a (some o')) workers jobs states owners' accepted := by
  have hkeep : ∀ b p, heap b = some p →
      ∃ p', Function.update heap a (some o') b = some p' ∧ p'.serial = p.serial := by
    intro b p hp
    refine ⟨_, some_update hp, ?_⟩
    by_cases hb : b = a
    · subst hb
      rw [ho, Option.some.injEq] at hp
      rw [if_pos rfl, hserial, hp]
    · rw [if_neg hb]
  have hfrom : ∀ b p', Function.update heap a (some o') b = some p' →
      ∃ p, heap b = some p ∧ p'.serial = p.serial := by
    intro b p' hp
    rcases update_some hp with ⟨rfl, rfl⟩ | ⟨-, hp⟩
    · exact ⟨o, ho, hserial⟩
    · exact ⟨p', hp, rfl⟩
  refine ⟨?_, ?_, ?_, ?_, ?_, ?_, ?_, howners, h.states_below, hbelow⟩
  · intro b p hp
    rcases update_some hp with ⟨rfl, rfl⟩ | ⟨hb, hp⟩
    · exact heq
    · rw [hother b p hb]
      exact h.references_eq b p hp
  · intro b p hp
    rcases update_some hp with ⟨rfl, rfl⟩ | ⟨hb, hp⟩
    · exact hpos
    · exact h.references_pos b p hp
  · intro b hb
    rcases hborrowed with hnone | hsome
    · rw [hnone] at hb
      exact absurd hb (by simp)
    · rw [hsome, Option.some.injEq] at hb
      subst hb
      exact ⟨o', Function.update_self _ _ _⟩
  · intro i w hi hholds
    obtain ⟨p, hp, hs⟩ := h.worker_live i w hi hholds
    obtain ⟨p', hp', hs'⟩ := hkeep _ p hp
    exact ⟨p', hp', hs'.trans hs⟩
  · intro j hj
    obtain ⟨p, hp, hs⟩ := h.job_live j hj
    obtain ⟨p', hp', hs'⟩ := hkeep _ p hp
    exact ⟨p', hp', hs'.trans hs⟩
  · intro b c p p' hp hp' hs
    obtain ⟨q, hq, hqs⟩ := hfrom b p hp
    obtain ⟨q', hq', hqs'⟩ := hfrom c p' hp'
    exact h.serial_inj b c q q' hq hq' (by rw [← hqs, ← hqs', hs])
  · apply h.states_balanced.congr
    intro k
    constructor
    · rintro ⟨b, p', hp, hk⟩
      obtain ⟨p, hp, hs⟩ := hfrom b p' hp
      exact ⟨b, p, hp, hs ▸ hk⟩
    · rintro ⟨b, p, hp, hk⟩
      obtain ⟨p', hp', hs⟩ := hkeep b p hp
      exact ⟨b, p', hp', hs.trans hk⟩

private theorem owners_update (h : RefsOk borrowed heap workers jobs states owners accepted)
    (ho : heap a = some o) (hserial : o'.serial = o.serial) (hreleased : o'.released = o.released) :
    owners.Balanced fun k => ∃ b p,
      Function.update heap a (some o') b = some p ∧ p.serial = k ∧ p.released = false := by
  apply h.owners_balanced.congr
  intro k
  constructor
  · rintro ⟨b, p, hp, hk, hrel⟩
    rcases update_some hp with ⟨rfl, rfl⟩ | ⟨-, hp⟩
    · exact ⟨b, o, ho, hserial ▸ hk, hreleased ▸ hrel⟩
    · exact ⟨b, p, hp, hk, hrel⟩
  · rintro ⟨b, p, hp, hk, hrel⟩
    refine ⟨b, _, some_update hp, ?_⟩
    by_cases hb : b = a
    · subst hb
      rw [ho, Option.some.injEq] at hp
      subst hp
      rw [if_pos rfl]
      exact ⟨hserial.trans hk, hreleased.trans hrel⟩
    · rw [if_neg hb]
      exact ⟨hk, hrel⟩

private theorem holdings_borrow {b : ℕ} (hb : b ≠ a) (o : Socks5) :
    holdings workers jobs (some a) b o = holdings workers jobs none b o := by
  simp [holdings, Ne.symm hb]

/-- socks5_ref: the step has a reference of its own. -/
theorem ref (h : RefsOk none heap workers jobs states owners accepted) (ho : heap a = some o) :
    RefsOk (some a) (Function.update heap a (some { o with references := o.references + 1 }))
      workers jobs states owners accepted := by
  have heq := h.references_eq a o ho
  apply h.update { o with references := o.references + 1 } ho rfl (Nat.succ_pos _) ?_
    (fun b o hb => holdings_borrow hb o) (Or.inr rfl) (h.owners_update ho rfl rfl) h.owners_below
  simp only [holdings] at heq ⊢
  simp only [reduceCtorEq, if_false, if_true] at heq ⊢
  omega

/-- The initial owner hands its reference to the step. -/
theorem disown (h : RefsOk none heap workers jobs states owners accepted) (ho : heap a = some o)
    (hreleased : o.released = false) :
    RefsOk (some a) (Function.update heap a (some { o with released := true })) workers jobs states
      (owners.settle o.serial) accepted := by
  have heq := h.references_eq a o ho
  apply h.update { o with released := true } ho rfl (h.references_pos a o ho) ?_
    (fun b o hb => holdings_borrow hb o) (Or.inr rfl) ?_ (h.owners_below.settle o.serial)
  · simp only [holdings, hreleased] at heq ⊢
    simp only [reduceCtorEq, if_false, if_true, Bool.false_eq_true] at heq ⊢
    omega
  · apply h.owners_balanced.settle ⟨a, o, ho, rfl, hreleased⟩
    intro k
    constructor
    · rintro ⟨b, p, hp, hk, hrel⟩
      rcases update_some hp with ⟨rfl, rfl⟩ | ⟨hb, hp⟩
      · exact absurd hrel (by simp)
      · refine ⟨⟨b, p, hp, hk, hrel⟩, ?_⟩
        intro heqk
        exact hb (h.serial_inj b a p o hp ho (hk.trans heqk))
    · rintro ⟨⟨b, p, hp, hk, hrel⟩, hne⟩
      have hb : b ≠ a := by
        rintro rfl
        rw [ho, Option.some.injEq] at hp
        exact hne (hk ▸ hp ▸ rfl)
      exact ⟨b, p, by rw [Function.update_of_ne hb]; exact hp, hk, hrel⟩

/-- A reference changes hands between the step and the workers and jobs. -/
theorem exchange {borrowed' : Option ℕ} {workers' : List DnsWorker} {jobs' : List BlockingJob}
    (h : RefsOk borrowed heap workers jobs states owners accepted)
    (hcount : ∀ a o, heap a = some o →
      holdings workers' jobs' borrowed' a o = holdings workers jobs borrowed a o)
    (hborrowed : ∀ a, borrowed' = some a → ∃ o, heap a = some o)
    (hworkers : ∀ (i : ℕ) w, workers'[i]? = some w → w.state.holds = true →
      ∃ o, heap w.socks = some o ∧ o.serial = w.lookup.serial)
    (hjobs : ∀ j ∈ jobs', ∃ o, heap j.data = some o ∧ o.serial = j.lookup.serial) :
    RefsOk borrowed' heap workers' jobs' states owners accepted where
  references_eq := by
    intro a o ho
    rw [hcount a o ho]
    exact h.references_eq a o ho
  references_pos := h.references_pos
  borrowed_live := hborrowed
  worker_live := hworkers
  job_live := hjobs
  serial_inj := h.serial_inj
  states_balanced := h.states_balanced
  owners_balanced := h.owners_balanced
  states_below := h.states_below
  owners_below := h.owners_below

theorem holdings_worker {borrowed' : Option ℕ} {st : WorkerState} (hi : workers[i]? = some w)
    (hshare : ∀ a, (if w.socks = a ∧ st.holds = true then 1 else 0) +
        (if borrowed' = some a then 1 else 0) =
      (if w.socks = a ∧ w.state.holds = true then 1 else 0) + if borrowed = some a then 1 else 0)
    (a : ℕ) (o : Socks5) :
    holdings (workers.set i { w with state := st }) jobs borrowed' a o =
      holdings workers jobs borrowed a o := by
  have hset := holders_set hi st a
  have ha := hshare a
  simp only [holdings]
  omega

theorem worker_set {st : WorkerState} (h : RefsOk borrowed heap workers jobs states owners accepted)
    (hi : workers[i]? = some w) (hholds : st.holds = true → w.state.holds = true) {j : ℕ}
    {v : DnsWorker}
    (hj : (workers.set i { w with state := st })[j]? = some v) (hv : v.state.holds = true) :
    ∃ o, heap v.socks = some o ∧ o.serial = v.lookup.serial := by
  rw [set_get? workers hi] at hj
  split at hj
  · rw [Option.some.injEq] at hj
    subst hj
    exact h.worker_live i w hi (hholds hv)
  · exact h.worker_live j v hj hv

/-- A worker goes on and keeps, or still lacks, its reference. -/
theorem move {st : WorkerState} (h : RefsOk none heap workers jobs states owners accepted)
    (hi : workers[i]? = some w) (hholds : st.holds = w.state.holds) :
    RefsOk none heap (workers.set i { w with state := st }) jobs states owners accepted := by
  apply h.exchange (fun a o _ => holdings_worker hi (fun a => by rw [hholds]) a o) (by simp)
  · intro j v hj hv
    exact h.worker_set hi (fun hst => hholds ▸ hst) hj hv
  · exact h.job_live

/-- A worker lets go of its reference. -/
theorem leave {st : WorkerState} (h : RefsOk none heap workers jobs states owners accepted)
    (hi : workers[i]? = some w) (hw : w.state.holds = true) (hst : st.holds = false) :
    RefsOk (some w.socks) heap (workers.set i { w with state := st }) jobs states owners accepted := by
  apply h.exchange
  · intro a o _
    apply holdings_worker hi
    intro a
    simp [hw, hst]
  · rintro a ⟨⟩
    obtain ⟨o, ho, -⟩ := h.worker_live i w hi hw
    exact ⟨o, ho⟩
  · intro j v hj hv
    exact h.worker_set hi (fun hst' => absurd (hst.symm.trans hst') (by simp)) hj hv
  · exact h.job_live

/-- The reference of a worker goes to the job that it queues. -/
theorem hand {st : WorkerState} (fd : ℕ) (h : RefsOk none heap workers jobs states owners accepted)
    (hi : workers[i]? = some w) (hw : w.state.holds = true) (hst : st.holds = false) :
    RefsOk none heap (workers.set i { w with state := st })
      ({ fd := fd, data := w.socks, lookup := w.lookup } :: jobs) states owners accepted := by
  have hleft := h.leave hi hw hst
  apply hleft.exchange
  · intro a o _
    simp only [holdings, queued_cons, Option.some.injEq, reduceCtorEq, if_false]
    omega
  · simp
  · exact hleft.worker_live
  · intro j hj
    rcases List.mem_cons.mp hj with rfl | hj
    · exact h.worker_live i w hi hw
    · exact h.job_live j hj

/-- The job at the head of the list gives up its reference. -/
theorem pop {j : BlockingJob} (h : RefsOk none heap workers (j :: jobs) states owners accepted) :
    RefsOk (some j.data) heap workers jobs states owners accepted := by
  apply h.exchange
  · intro a o _
    simp only [holdings, queued_cons, Option.some.injEq, reduceCtorEq, if_false]
    omega
  · rintro a ⟨⟩
    obtain ⟨o, ho, -⟩ := h.job_live j List.mem_cons_self
    exact ⟨o, ho⟩
  · exact h.worker_live
  · intro k hk
    exact h.job_live k (List.mem_cons_of_mem j hk)

/-- The borrowed reference goes to a new worker. -/
theorem spawn (h : RefsOk (some a) heap workers jobs states owners accepted) (ho : heap a = some o)
    (hw : w.socks = a) (hserial : o.serial = w.lookup.serial) (hstate : w.state = .resolving) :
    RefsOk none heap (workers ++ [w]) jobs states owners accepted := by
  apply h.exchange
  · intro b p _
    simp only [holdings, holders_append, hw, hstate, WorkerState.holds, and_true, Option.some.injEq,
      reduceCtorEq, if_false]
    omega
  · simp
  · intro j v hj hv
    rcases Nat.lt_trichotomy j workers.length with hlt | heq | hgt
    · rw [List.getElem?_append_left hlt] at hj
      exact h.worker_live j v hj hv
    · rw [heq, List.getElem?_concat_length, Option.some.injEq] at hj
      subst hj
      exact ⟨o, hw ▸ ho, hserial⟩
    · rw [List.getElem?_eq_none (by simp; omega)] at hj
      exact absurd hj (by simp)
  · exact h.job_live

/-- More clients were counted than connections were allocated. -/
theorem accept (h : RefsOk none heap workers jobs states owners accepted) :
    RefsOk none heap workers jobs states owners (accepted + 1) :=
  { h with
    states_below := fun k hk => Nat.lt_succ_of_lt (h.states_below k hk)
    owners_below := fun k hk => Nat.lt_succ_of_lt (h.owners_below k hk) }

/-- A new connection, with its initial reference. -/
theorem alloc (h : RefsOk none heap workers jobs states owners accepted) (hfree : heap a = none)
    (hserial : o.serial = accepted) (hrefs : o.references = 1) (hreleased : o.released = false) :
    RefsOk none (Function.update heap a (some o)) workers jobs (states.issue accepted)
      (owners.issue accepted) (accepted + 1) := by
  have hne : ∀ b p, heap b = some p → b ≠ a := by
    rintro b p hp rfl
    rw [hfree] at hp
    exact absurd hp (by simp)
  have hfresh : ∀ b p, heap b = some p → p.serial ≠ accepted := by
    intro b p hp heq
    have hlt := h.states_below _ (h.states_balanced.mem_of_live ⟨b, p, hp, rfl⟩)
    simp only [id_eq] at hlt
    omega
  have hkeep : ∀ b p, heap b = some p → Function.update heap a (some o) b = some p := by
    intro b p hp
    rw [Function.update_of_ne (hne b p hp)]
    exact hp
  have hnone : holdings workers jobs none a o = 1 := by
    have hholders : holders workers a = 0 := by
      apply List.countP_eq_zero.mpr
      intro w hw hcount
      rw [Bool.and_eq_true, decide_eq_true_eq] at hcount
      obtain ⟨i, hi⟩ := List.getElem?_of_mem hw
      obtain ⟨p, hp, -⟩ := h.worker_live i w hi hcount.2
      exact hne _ p hp hcount.1
    have hqueued : queued jobs a = 0 := by
      apply List.countP_eq_zero.mpr
      intro j hj hcount
      obtain ⟨p, hp, -⟩ := h.job_live j hj
      exact hne _ p hp (by simpa using hcount)
    simp [holdings, hholders, hqueued, hreleased]
  refine ⟨?_, ?_, by simp, ?_, ?_, ?_, ?_, ?_, ?_, ?_⟩
  · intro b p hp
    rcases update_some hp with ⟨rfl, rfl⟩ | ⟨-, hp⟩
    · rw [hnone, hrefs]
    · exact h.references_eq b p hp
  · intro b p hp
    rcases update_some hp with ⟨rfl, rfl⟩ | ⟨-, hp⟩
    · rw [hrefs]
      exact Nat.one_pos
    · exact h.references_pos b p hp
  · intro i w hi hholds
    obtain ⟨p, hp, hs⟩ := h.worker_live i w hi hholds
    exact ⟨p, hkeep _ p hp, hs⟩
  · intro j hj
    obtain ⟨p, hp, hs⟩ := h.job_live j hj
    exact ⟨p, hkeep _ p hp, hs⟩
  · intro b c p p' hp hp' hs
    rcases update_some hp with ⟨rfl, rfl⟩ | ⟨-, hq⟩ <;>
      rcases update_some hp' with ⟨rfl, rfl⟩ | ⟨-, hq'⟩
    · rfl
    · exact absurd (hs.symm.trans hserial) (hfresh _ _ hq')
    · exact absurd (hs.trans hserial) (hfresh _ _ hq)
    · exact h.serial_inj b c p p' hq hq' hs
  · apply h.states_balanced.issue (h.states_below.not_mem rfl)
    intro k
    constructor
    · rintro ⟨b, p, hp, hk⟩
      rcases update_some hp with ⟨rfl, rfl⟩ | ⟨-, hp⟩
      · exact Or.inr (hk.symm.trans hserial)
      · exact Or.inl ⟨b, p, hp, hk⟩
    · rintro (⟨b, p, hp, hk⟩ | rfl)
      · exact ⟨b, p, hkeep b p hp, hk⟩
      · exact ⟨a, o, Function.update_self _ _ _, hserial⟩
  · apply h.owners_balanced.issue (h.owners_below.not_mem rfl)
    intro k
    constructor
    · rintro ⟨b, p, hp, hk, hrel⟩
      rcases update_some hp with ⟨rfl, rfl⟩ | ⟨-, hp⟩
      · exact Or.inr (hk.symm.trans hserial)
      · exact Or.inl ⟨b, p, hp, hk, hrel⟩
    · rintro (⟨b, p, hp, hk, hrel⟩ | rfl)
      · exact ⟨b, p, hkeep b p hp, hk, hrel⟩
      · exact ⟨a, o, Function.update_self _ _ _, hserial, hreleased⟩
  · exact h.states_below.issue rfl
  · exact h.owners_below.issue rfl

/-- What socks5_release makes of a connection. -/
inductive Released (s : Server) (a : ℕ) : Server → Prop
  | last {o : Socks5} (ho : s.heap a = some o) (hrefs : o.references = 1)
      (howner : o.released = true) : Released s a (socks5Free s a o)
  | held {o : Socks5} {n : ℕ} (ho : s.heap a = some o) (hrefs : o.references = n + 2) :
      Released s a (s.set a { o with references := n + 1 })

/-- The step releases the reference it has borrowed; the count was not zero. -/
theorem release {s : Server}
    (h : RefsOk (some a) s.heap workers jobs s.books.states owners accepted) :
    ∃ t, socks5Release s a = .ok t ∧ Released s a t ∧
      RefsOk none t.heap workers jobs t.books.states owners accepted := by
  obtain ⟨o, ho⟩ := h.borrowed_live a rfl
  have hpos := h.references_pos a o ho
  have heq := h.references_eq a o ho
  simp only [holdings, if_true] at heq
  unfold socks5Release
  rw [ho]
  dsimp only
  obtain ⟨n, hn⟩ : ∃ n, o.references = n + 1 := ⟨o.references - 1, by omega⟩
  cases n with
  | zero =>
    -- nobody else holds a reference: the connection is freed
    have hreleased : o.released = true := by
      by_contra hrel
      rw [if_neg hrel] at heq
      omega
    rw [if_pos hreleased] at heq
    have hholders : holders workers a = 0 := by omega
    have hqueued : queued jobs a = 0 := by omega
    rw [hn]
    refine ⟨_, rfl, .last ho hn hreleased, ?_⟩
    have hworker : ∀ (i : ℕ) w, workers[i]? = some w → w.state.holds = true → w.socks ≠ a := by
      intro i w hi hholds hsocks
      have hnone := List.countP_eq_zero.mp hholders w (List.mem_of_getElem? hi)
      exact hnone (by simp [hsocks, hholds])
    have hjob : ∀ j ∈ jobs, j.data ≠ a := by
      intro j hj hdata
      have hnone := List.countP_eq_zero.mp hqueued j hj
      exact hnone (by simp [hdata])
    refine ⟨?_, ?_, by simp, ?_, ?_, ?_, ?_, ?_, h.states_below, h.owners_below⟩
    · intro b p hp
      obtain ⟨hb, hp⟩ := update_none hp
      rw [h.references_eq b p hp, holdings_borrow hb]
    · intro b p hp
      exact h.references_pos b p (update_none hp).2
    · intro i w hi hholds
      obtain ⟨p, hp, hs⟩ := h.worker_live i w hi hholds
      exact ⟨p, by simp [socks5Free, Function.update_of_ne (hworker i w hi hholds), hp], hs⟩
    · intro j hj
      obtain ⟨p, hp, hs⟩ := h.job_live j hj
      exact ⟨p, by simp [socks5Free, Function.update_of_ne (hjob j hj), hp], hs⟩
    · intro b c p p' hp hp' hs
      exact h.serial_inj b c p p' (update_none hp).2 (update_none hp').2 hs
    · apply h.states_balanced.settle ⟨a, o, ho, rfl⟩
      intro k
      constructor
      · rintro ⟨b, p, hp, hk⟩
        obtain ⟨hb, hp⟩ := update_none hp
        refine ⟨⟨b, p, hp, hk⟩, ?_⟩
        intro heqk
        exact hb (h.serial_inj b a p o hp ho (hk.trans heqk))
      · rintro ⟨⟨b, p, hp, hk⟩, hne⟩
        have hb : b ≠ a := by
          rintro rfl
          rw [ho, Option.some.injEq] at hp
          exact hne (hk ▸ hp ▸ rfl)
        exact ⟨b, p, by simp [socks5Free, Function.update_of_ne hb, hp], hk⟩
    · apply h.owners_balanced.congr
      intro k
      constructor
      · rintro ⟨b, p, hp, hk, hrel⟩
        exact ⟨b, p, (update_none hp).2, hk, hrel⟩
      · rintro ⟨b, p, hp, hk, hrel⟩
        have hb : b ≠ a := by
          rintro rfl
          rw [ho, Option.some.injEq] at hp
          rw [← hp, hreleased] at hrel
          exact absurd hrel (by simp)
        exact ⟨b, p, by simp [socks5Free, Function.update_of_ne hb, hp], hk, hrel⟩
  | succ n =>
    rw [hn]
    refine ⟨_, rfl, .held ho hn, ?_⟩
    apply h.update { o with references := n + 1 } ho rfl (Nat.succ_pos n) ?_
      (fun b o hb => (holdings_borrow hb o).symm) (Or.inl rfl) (h.owners_update ho rfl rfl)
      h.owners_below
    simp only [holdings, reduceCtorEq, if_false]
    omega

end RefsOk

end SocksProxy.ServerRefs
