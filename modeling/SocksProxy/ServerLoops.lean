import SocksProxy.ServerDials

/-!
The loops at the bottom of the stack: handle_block_notifications with its
cleanups, the forced shutdown of the pool, and selector_destroy.
-/
namespace SocksProxy.ServerLoops

open Kernel Ledgers ServerState ServerSteps ServerRefs ServerSockets ServerLookups
open ServerEntries ServerPool ServerParts ServerStages ServerClosing ServerDials

variable {s t : Server} {b b' : Bottom} {a fd i n : ℕ} {o o' : Socks5} {k : Answers}
variable {j : BlockingJob} {js jobs pending : List BlockingJob} {w : DnsWorker}

/-- The main thread is back in a loop, or in the selector. -/
theorem bottom_good (hparts : Parts none t t.jobs (b.pending t.jobs) b.clearing)
    (hstack : t.stack = b.frames)
    (hstanding : ∀ a o, t.heap a = some o → o.released = false →
      Standing b (flying t.workers (b.pending t.jobs) a) o)
    (hfooting : b.Footing t none) : Good (.ok t) := by
  refine ⟨.nothing, b, ⟨hparts, hstack, ?_, fun a o ho hopen _ => hstanding a o ho hopen,
    hfooting⟩, trivial, ?_⟩
  · cases b <;> simp [Doing.clearing, Bottom.clearing]
  · rintro c ⟨⟩

/-- Who believes to be registered has its initial reference. -/
theorem registered_open (h : Parts none s jobs pending []) (ho : s.heap a = some o)
    {side : Side} (hreg : sideRegistered side o = true) : o.released = false := by
  by_contra hrel
  have hgone := h.gone a o ho (by simpa using hrel)
  exact absurd (hreg.symm.trans (hgone.unregistered side)) (by simp)

theorem standing_count {r : ℕ} (h : Standing b n o) : Standing b n { o with references := r } :=
  ⟨⟨h.closing, h.cancelled, h.clientRegistered⟩, h.unregistered, h.waiting, h.settled⟩

/-- Of the connections that are left after socks5_release, only a count has changed. -/
theorem released_from (h : RefsOk.Released s a t) {c : ℕ} {p : Socks5} (hp : t.heap c = some p) :
    ∃ q, s.heap c = some q ∧ p = { q with references := p.references } := by
  cases h with
  | last ho hcount howner => exact ⟨p, (update_none hp).2, rfl⟩
  | @held q n ho hcount =>
    rcases update_some hp with ⟨rfl, rfl⟩ | ⟨-, hp⟩
    · exact ⟨q, ho, rfl⟩
    · exact ⟨p, hp, rfl⟩

section Notifications

theorem jobMatches_iff : jobMatches s j = true ↔ ∃ it, s.items j.fd = some it ∧
    it.data = some j.data := by
  unfold jobMatches
  cases s.items j.fd <;> simp

theorem jobHandled_iff : jobHandled s j = true ↔ ∃ it, s.items j.fd = some it ∧
    it.handler = .socksv5 := by
  unfold jobHandled
  cases s.items j.fd <;> simp

/-- As long as the worker of the job at the head of the list has not unlocked,
the connection stands: the job is for the entry it names. -/
theorem unlocking_matches (h : Ok s .nothing .notifications) (hjobs : s.jobs = j :: js)
    (hi : s.workers[i]? = some w) (hw : w.state = .unlocking true) (hl : w.lookup = j.lookup) :
    s.locked j.data = true ∧ jobMatches s j = true ∧ jobHandled s j = true := by
  have hparts : Parts none s s.jobs s.jobs [] := h.ground.parts
  obtain ⟨j', hj', hdata, hlookup⟩ := hparts.lookups.handed i w hi hw
  have hmem : j ∈ s.jobs := hjobs ▸ List.mem_cons_self
  have heq : j' = j :=
    List.inj_on_of_nodup_map hparts.lookups.pending_nodup hj' hmem (hlookup.trans hl)
  subst heq
  obtain ⟨o, ho, -⟩ := hparts.refs.job_live j' hj'
  have hlocks : w.state.locks = true := by
    rw [hw]
    rfl
  have hcancelled := hparts.lookups.uncancelled i w o hi hlocks (hdata ▸ ho)
  have hopen : o.released = false := by
    by_contra hrel
    have hgone := hparts.gone _ o ho (by simpa using hrel)
    exact absurd (hcancelled.symm.trans hgone.cancelled) (by simp)
  have hstanding := h.ground.standing _ o ho hopen (by simp [Doing.subject])
  have hfd := hparts.lookups.job_fd j' hj' o ho hstanding.closing
  have hreg : sideRegistered .client o = true := hstanding.clientRegistered
  obtain ⟨it, hit, -, hhandler, hdata'⟩ := registered_entry hparts ho hreg hfd
  refine ⟨?_, jobMatches_iff.mpr ⟨it, hit, hdata'⟩, jobHandled_iff.mpr ⟨it, hit, hhandler⟩⟩
  exact List.any_eq_true.mpr ⟨w, List.mem_of_getElem? hi, by simp [hdata, hlocks]⟩

/-- A lookup that was on its way makes room for the next one. -/
theorem flying_tail (hjobs : s.jobs = j :: js) (c : ℕ) :
    flying s.workers js c ≤ flying s.workers s.jobs c := by
  rw [hjobs]
  simp only [flying, queued_cons]
  omega

/-- The job is reported to the connection whose lookup it is. -/
theorem blockDone_good (h : Ok s .nothing .notifications) (hjobs : s.jobs = j :: js)
    (hmatch : jobMatches s j = true) (hhandled : jobHandled s j = true) :
    Good (socksv5BlockDone { s with stack := [.cleanup, .notifications] } j k) := by
  have hparts : Parts none s s.jobs s.jobs [] := h.ground.parts
  have hlookups := hparts.lookups
  let v : Server := { s with stack := [.cleanup, .notifications] }
  obtain ⟨it, hit, hdata⟩ := jobMatches_iff.mp hmatch
  obtain ⟨it', hit', hhandler⟩ := jobHandled_iff.mp hhandled
  obtain rfl := Option.some.inj (hit.symm.trans hit')
  have hhandler' : it.handler = handlerOf .client := hhandler
  obtain ⟨o, ho, hreg, -⟩ := hparts.entries.belongs hit List.not_mem_nil hhandler' hdata
  have hopen := registered_open hparts ho hreg
  have hstanding := h.ground.standing _ o ho hopen (by simp [Doing.subject])
  show Good (socksv5BlockDone v j k)
  unfold socksv5BlockDone
  by_cases hlocked : v.locked j.data = true
  · rw [if_pos hlocked]
    exact good_unreal
  rw [if_neg hlocked, owned_eq (s := v) ho hopen]
  have hfree : ∀ (i : ℕ) w, v.workers[i]? = some w → w.state = .unlocking true →
      w.lookup ≠ j.lookup := by
    intro i w hi hw hl
    exact hlocked (unlocking_matches h hjobs hi hw hl).1
  -- this was the one lookup on the way to the connection
  have hjob : 0 < queued s.jobs j.data := by
    rw [hjobs, queued_cons, if_pos rfl]
    omega
  have hflying : 0 < flying s.workers s.jobs j.data := by
    unfold flying
    omega
  have hzero : flying s.workers js j.data = 0 := by
    have hle := hlookups.flying_le _ o ho hstanding.cancelled
    rw [hjobs] at hle
    simp only [flying, queued_cons, if_true] at hle ⊢
    omega
  have hserial : o.serial = j.lookup.serial := by
    obtain ⟨p, hp, hs⟩ := hparts.refs.job_live j (hjobs ▸ List.mem_cons_self)
    obtain rfl := Option.some.inj (ho.symm.trans hp)
    exact hs
  let o' : Socks5 := { o with dnsPending := false }
  let t : Server := { v.set j.data o' with
    books := { v.books with blockDone := (o.serial, j.lookup) :: v.books.blockDone } }
  have hv : Parts none v (j :: js) (j :: js) [] := by
    have hparts' := hparts
    rw [hjobs] at hparts'
    exact hparts'.stack _
  have hset : Parts none (v.set j.data o') (j :: js) (j :: js) [] :=
    hv.set ho ⟨rfl, rfl, rfl, rfl, rfl, rfl, rfl⟩ rfl (Or.inl rfl) id
  have hjobs' : t.jobs = j :: js := hjobs
  have hground : Ground t .cleanup [] [] (some j.data) := by
    refine ⟨?_, rfl, List.nodup_nil, ?_, ?_⟩
    · rw [hjobs']
      exact hset.report hfree hserial
    · intro c p hp hrel hne
      have hca : c ≠ j.data := fun heq => hne (heq ▸ rfl)
      have hp' : Function.update s.heap j.data (some o') c = some p := hp
      rw [Function.update_of_ne hca] at hp'
      have hc := h.ground.standing c p hp' hrel (by simp [Doing.subject])
      rw [hjobs']
      exact hc.moved (fun hd => hd) (flying_tail hjobs c)
    · show t.jobs ≠ []
      rw [hjobs']
      simp
  have hzero' : flying t.workers (Bottom.cleanup.pending t.jobs) j.data = 0 := by
    rw [hjobs']
    exact hzero
  exact connectToOrigin_good hground rfl (Function.update_self _ _ _) hopen
    ⟨hstanding.closing, hstanding.cancelled, hstanding.clientRegistered⟩
    (hstanding.waiting hflying).1 hzero'

theorem notifications_good (h : Ok s .nothing .notifications) :
    Good (handleBlockNotifications { s with stack := [] } k) := by
  have hparts : Parts none s s.jobs s.jobs [] := h.ground.parts
  have hstanding : ∀ a o, s.heap a = some o → o.released = false →
      Standing .notifications (flying s.workers s.jobs a) o :=
    fun a o ho hopen => h.ground.standing a o ho hopen (by simp [Doing.subject])
  unfold handleBlockNotifications
  split
  next hjobs =>
    exact bottom_good (b := .idle) (hparts.stack []) rfl
      (fun a o ho hopen => (hstanding a o ho hopen).bottom fun hd => hd) trivial
  next j js hjobs =>
    have hjobs' : s.jobs = j :: js := hjobs
    split
    next hcase =>
      rw [Bool.and_eq_true] at hcase
      show Good (socksv5BlockDone { s with stack := [.cleanup, .notifications] } j k)
      exact blockDone_good h hjobs' hcase.1 hcase.2
    next hcase =>
      let v : Server := { s with stack := [.cleanup, .notifications] }
      have hv : Parts none v (j :: js) (j :: js) [] := by
        have hparts' := hparts
        rw [hjobs'] at hparts'
        exact hparts'.stack _
      have hfree : ∀ (i : ℕ) w, v.workers[i]? = some w → w.state = .unlocking true →
          w.lookup ≠ j.lookup := by
        intro i w hi hw hl
        obtain ⟨-, hmatch, hhandled⟩ := unlocking_matches h hjobs' hi hw hl
        exact hcase (Bool.and_eq_true_iff.mpr ⟨hmatch, hhandled⟩)
      show Good (.ok v)
      have hvjobs : v.jobs = j :: js := hjobs
      apply bottom_good (b := .cleanup) _ rfl
      · intro c p hp hopen
        rw [hvjobs]
        exact (hstanding c p hp hopen).moved (fun hd => hd) (flying_tail hjobs' c)
      · show v.jobs ≠ []
        rw [hvjobs]
        simp
      · rw [hvjobs]
        exact hv.handle hfree

/-- The cleanup of the job that was handled. -/
theorem cleanup_good (h : Ok s .nothing .cleanup) :
    Good (jobCleanup { s with stack := [.notifications] }) := by
  have hfooting : s.jobs ≠ [] := h.ground.footing
  obtain ⟨j, js, hjobs⟩ := List.exists_cons_of_ne_nil hfooting
  let u : Server := { s with stack := [.notifications] }
  have hu : Parts none u (j :: js) js [] := by
    have hparts : Parts none s s.jobs s.jobs.tail [] := h.ground.parts
    rw [hjobs] at hparts
    exact hparts.stack _
  obtain ⟨t, ht, hparts, hreleased, hcalm⟩ := hu.pop
  show Good (jobCleanup u)
  unfold jobCleanup
  split
  next hnil => exact absurd (hjobs.symm.trans hnil) (by simp)
  next j' js' hcons =>
    obtain ⟨rfl, rfl⟩ := List.cons.inj (hcons.symm.trans hjobs)
    rw [ht]
    show Good (.ok { t with jobs := js' })
    apply bottom_good (b := .notifications) (hparts.queue js') hcalm.stack _ trivial
    intro c p hp hopen
    obtain ⟨q, hq, hpq⟩ := released_from hreleased hp
    have hqopen : q.released = false := by
      rw [hpq] at hopen
      exact hopen
    have hstanding := h.ground.standing c q hq hqopen (by simp [Doing.subject])
    have hworkers : t.workers = s.workers := hcalm.workers
    have hle : flying t.workers js' c ≤ flying s.workers s.jobs.tail c := by
      rw [hworkers, hjobs]
      exact Nat.le_refl _
    rw [hpq]
    exact standing_count (hstanding.moved (fun hd => hd) hle)

end Notifications

section Shutdown

theorem force_good (h : Ok s .nothing .force) :
    Good (poolForceShutdown { s with stack := [] }) := by
  have hparts : Parts none s s.jobs s.jobs [] := h.ground.parts
  have hstanding : ∀ a o, s.heap a = some o → o.released = false →
      Standing .force (flying s.workers s.jobs a) o :=
    fun a o ho hopen => h.ground.standing a o ho hopen (by simp [Doing.subject])
  unfold poolForceShutdown
  split
  next hpool =>
    exact bottom_good (b := .idle) (hparts.stack []) rfl
      (fun a o ho hopen => (hstanding a o ho hopen).bottom fun hd => hd) trivial
  next a rest hpool =>
    have hmem : a ∈ s.pool := by
      rw [show s.pool = a :: rest from hpool]
      exact List.mem_cons_self
    obtain ⟨o, ho, hreg⟩ := (hparts.pool.mem_iff a).mp hmem
    have hreg' : sideRegistered .client o = true := hreg
    have hopen := registered_open hparts ho hreg'
    have hopened := hstanding a o ho hopen
    obtain ⟨fd, hfd⟩ := client_fd hparts ho hreg
    let u : Server := { s with stack := [.connectionClose a, .forceCheck a, .force] }
    let o' : Socks5 := { o with cancelled := true }
    show Good (socks5Cancel u a)
    unfold socks5Cancel
    by_cases hlocked : u.locked a = true
    · rw [if_pos hlocked]
      exact good_unreal
    rw [if_neg hlocked, owned_eq (s := u) ho hopen]
    have hset : Parts none (u.set a o') s.jobs s.jobs [] :=
      (hparts.stack [.connectionClose a, .forceCheck a, .force]).set ho
        ⟨rfl, rfl, rfl, rfl, rfl, rfl, rfl⟩ rfl (Or.inr ⟨rfl, by simpa using hlocked⟩) id
    refine ⟨.close a, .forceCheck a, ⟨hset, rfl, List.nodup_nil, ?_, rfl⟩, rfl, ?_⟩
    · intro c p hp hrel hne
      have hca : c ≠ a := fun heq => hne (heq ▸ rfl)
      have hp' : Function.update s.heap a (some o') c = some p := hp
      rw [Function.update_of_ne hca] at hp'
      exact (hstanding c p hp' hrel).bottom fun hd => hd
    · rintro c ⟨⟩
      exact ⟨o', Function.update_self _ _ _, hopen, hopened.closing, ⟨fd, hfd⟩,
        fun hb => absurd hb (by simp)⟩

/-- The connection that was closed is no longer the head of the list. -/
theorem forceCheck_good (h : Ok s .nothing (.forceCheck a)) :
    Good (forceCheck { s with stack := [.force] } a) := by
  have hparts : Parts none s s.jobs s.jobs [] := h.ground.parts
  have hmem : a ∉ s.pool := h.ground.footing
  unfold forceCheck
  rw [if_neg]
  · apply bottom_good (b := .force) (hparts.stack [.force]) rfl _ trivial
    intro c p hp hopen
    exact (h.ground.standing c p hp hopen (by simp [Doing.subject])).bottom fun hd => hd
  · intro hhead
    exact hmem (List.mem_of_mem_head? hhead)

/-- Without entries no connection is left open. -/
theorem none_open (h : Parts none s jobs pending [])
    (hstanding : ∀ a o, s.heap a = some o → o.released = false →
      Standing b (flying s.workers pending a) o)
    (hitems : ∀ e, s.items e = none) (ho : s.heap a = some o) : o.released = true := by
  by_contra hrel
  have hopen : o.released = false := by simpa using hrel
  have hreg : sideRegistered .client o = true := (hstanding a o ho hopen).clientRegistered
  obtain ⟨fd, it, -, hit, -⟩ := h.entries.registered a o .client ho hreg
  rw [hitems fd] at hit
  exact absurd hit (by simp)

theorem destroy_good (h : Ok s .nothing (.destroy i)) :
    Good (selectorDestroy { s with stack := [] } i) := by
  have hparts : Parts none s s.jobs s.jobs [] := h.ground.parts
  have hstanding : ∀ a o, s.heap a = some o → o.released = false →
      Standing (.destroy i) (flying s.workers s.jobs a) o :=
    fun a o ho hopen => h.ground.standing a o ho hopen (by simp [Doing.subject])
  have hbelow : ∀ e < i, s.items e = none := h.ground.footing
  unfold selectorDestroy
  split
  next hlt =>
    let u : Server := { s with stack := [] }
    have hu : Parts none u s.jobs s.jobs [] := hparts.stack []
    show Good (selectorUnregisterFd (u.push [.destroy (i + 1)]) i)
    cases hit : s.items i with
    | none =>
      have hunused : selectorUnregisterFd (u.push [.destroy (i + 1)]) i =
          .ok (u.push [.destroy (i + 1)]) := by
        unfold selectorUnregisterFd
        rw [show (u.push [.destroy (i + 1)]).items i = none from hit]
      rw [hunused]
      apply bottom_good (b := .destroy (i + 1)) (hparts.stack [.destroy (i + 1)]) rfl
      · intro c p hp hopen
        exact (hstanding c p hp hopen).bottom fun _ => rfl
      · intro e he
        rcases Nat.lt_succ_iff_lt_or_eq.mp he with he | rfl
        · exact hbelow e he
        · exact hit
    | some it =>
      by_cases hother : it.handler = .other
      · obtain ⟨t, ht, hparts', hheap, hitems, -, hworkers, hjobs, hstack⟩ :=
          hu.unregister_other hit List.not_mem_nil hother [.destroy (i + 1)]
        rw [ht]
        apply bottom_good (b := .clearDestroy i it.data) _ hstack
        · intro c p hp hopen
          rw [hheap] at hp
          rw [hworkers, hjobs]
          exact (hstanding c p hp hopen).bottom fun _ => rfl
        · intro e he
          rw [hitems]
          exact hbelow e he
        · rw [hjobs]
          exact hparts'
      · obtain ⟨side, a, o, hhandler, hdata, ho, hreg, hfd, -⟩ :=
          hparts.entries.entry i it hit List.not_mem_nil hother
        have hopen := registered_open hparts ho hreg
        have hopened := hstanding a o ho hopen
        have hsame : u.set a o = u := by
          unfold Server.set
          rw [← show u.heap a = some o from ho, Function.update_eq_self]
        cases side with
        | client =>
          obtain ⟨t, ht, hparts', hheap, hitems, hworkers, hjobs, hstack⟩ :=
            hu.unregister_client hit List.not_mem_nil hhandler hdata ho hopen
              [.destroy (i + 1)] (p := o) rfl
          rw [hsame] at ht
          rw [ht]
          refine ⟨.close a, .clearDestroy i (some a), ⟨?_, hstack, ?_, ?_, ?_⟩, rfl, ?_⟩
          · rw [hjobs]
            exact hparts'
          · simp [Doing.clearing, Bottom.clearing]
          · intro c p hp hrel hne
            have hca : c ≠ a := fun heq => hne (heq ▸ rfl)
            rw [hheap, Function.update_of_ne hca] at hp
            rw [hworkers, hjobs]
            exact (hstanding c p hp hrel).bottom fun _ => rfl
          · intro e he
            rw [hitems]
            exact hbelow e he
          · rintro c ⟨⟩
            refine ⟨{ o with clientRegistered := false }, ?_, hopen, hopened.closing, ⟨i, hfd⟩,
              fun hb => absurd hb (by simp)⟩
            rw [hheap, Function.update_self]
        | origin =>
          obtain ⟨t, ht, hparts', hheap, hitems, hworkers, hjobs, hstack⟩ :=
            hu.unregister_origin hit List.not_mem_nil hhandler hdata ho hopen
              [.destroy (i + 1)] (p := o) rfl
          rw [hsame] at ht
          rw [ht]
          apply bottom_good (b := .clearDestroy i (some a)) _ hstack
          · intro c p hp hrel
            rw [hheap] at hp
            rw [hworkers, hjobs]
            rcases update_some hp with ⟨rfl, rfl⟩ | ⟨-, hp⟩
            · -- its socket stays with it until its client's entry comes
              exact ⟨⟨hopened.closing, hopened.cancelled, hopened.clientRegistered⟩,
                fun _ => Or.inr rfl, hopened.waiting, hopened.settled⟩
            · exact (hstanding c p hp hrel).bottom fun _ => rfl
          · intro e he
            rw [hitems]
            exact hbelow e he
          · rw [hjobs]
            exact hparts'
  next hge =>
    have hnone : ∀ e, s.items e = none := by
      intro e
      by_cases he : e < i
      · exact hbelow e he
      · by_contra hit
        obtain ⟨it, hit⟩ := Option.ne_none_iff_exists'.mp hit
        have hlt := hparts.entries.fd_lt e it hit
        unfold ITEMS_MAX_SIZE at hlt
        unfold FD_SIZE at hge
        omega
    apply bottom_good (b := .destroyJobs) (hparts.stack [.destroyJobs]) rfl _ hnone
    intro c p hp hopen
    have hrel := none_open hparts hstanding hnone hp
    exact absurd (hopen.symm.trans hrel) (by simp)

theorem destroyJobs_good (h : Ok s .nothing .destroyJobs) :
    Good (destroyJobs { s with stack := [] }) := by
  have hparts : Parts none s s.jobs s.jobs [] := h.ground.parts
  have hnone : ∀ e, s.items e = none := h.ground.footing
  have hgone : ∀ a o, s.heap a = some o → o.released = true := fun a o ho =>
    none_open hparts (fun a o ho hopen => h.ground.standing a o ho hopen (by simp [Doing.subject]))
      hnone ho
  unfold destroyJobs
  split
  next hjobs =>
    apply bottom_good (b := .ended) (hparts.stack [.ended]) rfl _ hnone
    intro c p hp hopen
    exact absurd (hopen.symm.trans (hgone c p hp)) (by simp)
  next j js hjobs =>
    let u : Server := { s with stack := [] }
    have hjobs' : s.jobs = j :: js := hjobs
    have hu : Parts none u (j :: js) (j :: js) [] := by
      have hparts' := hparts
      rw [hjobs'] at hparts'
      exact hparts'.stack []
    have hfree : ∀ (i : ℕ) w, u.workers[i]? = some w → w.state = .unlocking true →
        w.lookup ≠ j.lookup := by
      -- every connection was cancelled, which its worker would have held up
      intro i w hi hw _
      obtain ⟨j', hj', hdata, -⟩ := hu.lookups.handed i w hi hw
      obtain ⟨p, hp, -⟩ := hu.refs.job_live j' hj'
      have hlocks : w.state.locks = true := by
        rw [hw]
        rfl
      have hcancelled := hu.lookups.uncancelled i w p hi hlocks (hdata ▸ hp)
      have hp' := hparts.gone _ p hp (hgone _ p hp)
      exact absurd (hcancelled.symm.trans hp'.cancelled) (by simp)
    obtain ⟨t, ht, hparts', hreleased, hcalm⟩ := (hu.handle hfree).pop
    have hitems : t.items = s.items := by
      cases hreleased <;> rfl
    show Good ((socks5Release u j.data).map fun s => { s.push [.destroyJobs] with jobs := js })
    rw [ht]
    have hstack : t.stack = [] := hcalm.stack
    let v : Server := { t.push [.destroyJobs] with jobs := js }
    have hv : Parts none v js js [] := (hparts'.stack (.destroyJobs :: t.stack)).queue js
    show Good (.ok v)
    apply bottom_good (b := .destroyJobs) hv
    · show [Frame.destroyJobs] ++ t.stack = _
      rw [hstack]
      rfl
    · intro c p hp hopen
      obtain ⟨q, hq, hpq⟩ := released_from hreleased hp
      have hrel := hgone c q hq
      rw [hpq] at hopen
      exact absurd (hopen.symm.trans hrel) (by simp)
    · intro e
      show t.items e = none
      rw [hitems]
      exact hnone e

/-- An entry is cleared under which no connection is at work. -/
theorem clear_entry (h : Ok s .nothing b) (hcs : b.clearing = [fd]) (fs : List Frame) :
    Parts none (Server.setItem { s with stack := fs } fd none) s.jobs (b.pending s.jobs) [] := by
  have hparts : Parts none s s.jobs (b.pending s.jobs) b.clearing := h.ground.parts
  rw [hcs] at hparts
  exact (hparts.stack fs).clear List.not_mem_nil

theorem clearDestroy_good {data : Option ℕ} (h : Ok s .nothing (.clearDestroy fd data)) :
    Good (.ok (Server.setItem { s with stack := [.destroy (fd + 1)] } fd none)) := by
  have hbelow : ∀ e < fd, s.items e = none := h.ground.footing
  apply bottom_good (b := .destroy (fd + 1)) (clear_entry h rfl _) rfl
  · intro c p hp hopen
    exact (h.ground.standing c p hp hopen (by simp [Doing.subject])).bottom fun _ => rfl
  · intro e he
    show Function.update s.items fd none e = none
    rcases Nat.lt_succ_iff_lt_or_eq.mp he with he | rfl
    · rw [Function.update_of_ne (Nat.ne_of_lt he)]
      exact hbelow e he
    · rw [Function.update_self]

theorem clearOther_good {data : Option ℕ} (h : Ok s .nothing (.clearOther fd data)) :
    Good (.ok (Server.setItem { s with stack := [.close fd] } fd none)) := by
  apply bottom_good (b := .closeOther fd) (clear_entry h rfl _) rfl
  · intro c p hp hopen
    exact (h.ground.standing c p hp hopen (by simp [Doing.subject])).bottom fun hd => hd
  · exact ⟨Function.update_self _ _ _, h.ground.footing⟩

theorem closeOther_good (h : Ok s .nothing (.closeOther fd)) :
    Good (sysClose { s with stack := [] } fd) := by
  obtain ⟨hitem, sk, hsk, howner⟩ := h.ground.footing
  have hparts : Parts none s s.jobs s.jobs [] := h.ground.parts
  obtain ⟨t, ht, hparts', hheap, hcalm⟩ := (hparts.stack []).other_close hsk howner hitem
  rw [ht]
  have hjobs : t.jobs = s.jobs := hcalm.jobs
  have hworkers : t.workers = s.workers := hcalm.workers
  apply bottom_good (b := .idle) _ hcalm.stack _ trivial
  · rw [hjobs]
    exact hparts'
  · intro c p hp hopen
    rw [hheap] at hp
    rw [hworkers, hjobs]
    exact (h.ground.standing c p hp hopen (by simp [Doing.subject])).bottom fun hd => hd

end Shutdown

end SocksProxy.ServerLoops
